import SliceAgent.Text.Numeral

/-!
Names of slices. The card of index `n` is called `npu-n-0`, and the slices carved from it `npu-n-1`,
`npu-n-2` and so on. Each name is read back as what it was made from (`SliceId.parse?_text`).
-/
namespace SliceAgent

structure SliceId where
  card : UInt32
  counter : UInt32
deriving DecidableEq, Repr

namespace SliceId

def text (i : SliceId) : String :=
  "npu-" ++ Text.decimal i.card.toNat ++ "-" ++ Text.decimal i.counter.toNat

def wholeCard (card : UInt32) : String := text ⟨card, 0⟩

def afterLead? (cs : List Char) : Option (List Char) :=
  match cs with
  | 'n' :: 'p' :: 'u' :: '-' :: rest => some rest
  | _ => none

/-- Two runs of digits around the first dash. -/
def parse? (name : String) : Option SliceId := do
  let rest ← afterLead? name.toList
  match rest.dropWhile (· != '-') with
  | [] => none
  | _ :: counter =>
    let card ← Text.wordOfDigits? (rest.takeWhile (· != '-'))
    let counter ← Text.wordOfDigits? counter
    pure ⟨card, counter⟩

def isSliceId (name : String) : Bool := (parse? name).isSome

/-- A name without its leading `npu-`, if it has one. -/
def suffix (name : String) : String :=
  match afterLead? name.toList with
  | some rest => String.ofList rest
  | none => name

theorem dash_not_in_decimal (n : Nat) : ∀ c ∈ (Text.decimal n).toList, (c != '-') = true := by
  intro c hc
  rw [Text.decimal, String.toList_ofList] at hc
  have hd : c.isDigit = true := Nat.isDigit_of_mem_toDigits (by omega) (by omega) hc
  apply bne_iff_ne.2
  rintro rfl
  exact absurd hd (by decide)

theorem parse?_of_lead {name : String} {front back : List Char}
    (hlead : afterLead? name.toList = some (front ++ '-' :: back))
    (hfree : ∀ c ∈ front, (c != '-') = true) : parse? name =
      (Text.wordOfDigits? front).bind fun card =>
        (Text.wordOfDigits? back).bind fun counter => some ⟨card, counter⟩ := by
  rw [parse?, hlead]
  simp only [Option.bind_eq_bind, Option.bind_some, List.dropWhile_append_of_pos hfree,
    List.takeWhile_append_of_pos hfree, List.dropWhile_cons, List.takeWhile_cons, bne_self_eq_false,
    Bool.false_eq_true, if_false, List.append_nil]
  rfl

theorem afterLead?_text (i : SliceId) :
    afterLead? i.text.toList =
      some ((Text.decimal i.card.toNat).toList ++ '-' :: (Text.decimal i.counter.toNat).toList) := by
  simp [text, afterLead?]

@[simp] theorem parse?_text (i : SliceId) : parse? i.text = some i := by
  rw [parse?_of_lead (afterLead?_text i) (dash_not_in_decimal _), Text.wordOfDigits?_decimal,
    Text.wordOfDigits?_decimal]
  rfl

theorem text_injective {i j : SliceId} (h : i.text = j.text) : i = j := by
  have := congrArg parse? h
  simpa using this

end SliceId

end SliceAgent
