import SliceAgent.Proofs.RestoredCards

/-!
Calls that change a card in place, one pool after the other. Nothing puts back what was changed before a
failure; yet a call in place has the result of the call that computes the whole card, and a call that fails
leaves the engine as it was (`Engine.allocateInPlace_eq`, `Engine.releaseInPlace_eq`), as all checks come
before the first change.
-/
namespace SliceAgent

/-- A computation that changes a state in place: what it changed before it failed stays changed. -/
abbrev InPlace (σ : Type) := EStateM EngineError σ

/-- What a computation does in place that changes nothing if it fails. -/
def settled {σ α : Type} (s : σ) : Except EngineError (α × σ) → EStateM.Result EngineError σ α
  | .ok (a, s') => .ok a s'
  | .error err => .error err s

section Settled

variable {σ α : Type} {s s' : σ} {a : α} {err : EngineError} {outcome : Except EngineError (α × σ)}

theorem settled_eq_ok_iff : settled s outcome = .ok a s' ↔ outcome = .ok (a, s') := by
  cases outcome <;> simp [settled, Prod.ext_iff]

theorem settled_eq_error_iff : settled s outcome = .error err s' ↔ outcome = .error err ∧ s' = s := by
  cases outcome <;> simp [settled, eq_comm]

end Settled

namespace Card

variable {policy : Eligibility} {catalog : Catalog} {c c' : Card} {id : String} {place : Nat}

def withoutAvailable (place : Nat) (c : Card) : Card := { c with available := c.available.eraseIdx place }

def withAllocated (s : Slice) (c : Card) : Card := { c with allocated := c.allocated ++ [s] }

def synthesizeRemainder : InPlace Card Slice := do
  let c ← get
  set c.advance
  return c.remainder

def takeWholeInPlace (policy : Eligibility) (catalog : Catalog) : InPlace Card Allocation := do
  let whole := (← get).deviceId
  let some place := (← get).findAvailable? whole | throw (.alreadyAllocated whole)
  let some found := (← get).available[place]? | throw (.alreadyAllocated whole)
  modify (withoutAvailable place)
  let s : Slice := { found with allocated := true }
  modify (withAllocated s)
  modify (refreshAllocated policy catalog)
  return ⟨s, none, .none⟩

def carveInPlace (policy : Eligibility) (catalog : Catalog) (id : String) (t : Template) :
    InPlace Card Allocation := do
  let some place := (← get).findAvailable? id | throw (.sliceUnavailable id)
  let some found := (← get).available[place]? | throw (.sliceUnavailable id)
  modify (withoutAvailable place)
  let s : Slice := { found with templateName := t.name, allocated := true }
  modify (withAllocated s)
  let left ← synthesizeRemainder
  modify fun c => { c with available := c.available ++ [left] }
  modify (refreshAllocated policy catalog)
  return ⟨s, some t, ⟨[.ofCard (← get) left], []⟩⟩

def allocateInPlace (policy : Eligibility) (catalog : Catalog) (id : String) (aiCore memoryGb : UInt32) :
    InPlace Card Allocation := do
  if aiCore = 0 ∧ memoryGb = 0 then takeWholeInPlace policy catalog
  else
    let some t := (← get).supported.bestFit aiCore memoryGb | throw (.resourceExhausted aiCore memoryGb)
    carveInPlace policy catalog id t

def releaseInPlace (policy : Eligibility) (catalog : Catalog) (place : Nat) : InPlace Card SliceChange := do
  let before ← get
  let whole := (before.allocated[place]?.map (·.kind)) == some .wholeCard
  modify fun c => { c with allocated := c.allocated.eraseIdx place }
  if whole || (← get).allocated.isEmpty then
    modify reset
    modify (refresh policy catalog)
    return ⟨[], before.retired (← get)⟩
  else
    let left ← synthesizeRemainder
    modify fun c => { c with available := [left] }
    modify (refresh policy catalog)
    return ⟨[.ofCard (← get) left], before.retired (← get)⟩

theorem takeWholeInPlace_eq :
    (takeWholeInPlace policy catalog).run c = settled c (c.takeWhole policy catalog) := by
  unfold takeWholeInPlace takeWhole
  cases hplace : c.findAvailable? c.deviceId with
  | none =>
    simp only [EStateM.run_bind, EStateM.run_get, hplace]
    rfl
  | some place =>
    cases hfound : c.available[place]? with
    | none =>
      simp only [EStateM.run_bind, EStateM.run_get, hplace, hfound]
      rfl
    | some found =>
      simp only [EStateM.run_bind, EStateM.run_get, hplace, hfound]
      rfl

theorem carveInPlace_eq {t : Template} :
    (carveInPlace policy catalog id t).run c = settled c (c.carve policy catalog id t) := by
  unfold carveInPlace carve
  cases hplace : c.findAvailable? id with
  | none =>
    simp only [EStateM.run_bind, EStateM.run_get, hplace]
    rfl
  | some place =>
    cases hfound : c.available[place]? with
    | none =>
      simp only [EStateM.run_bind, EStateM.run_get, hplace, hfound]
      rfl
    | some found =>
      simp only [EStateM.run_bind, EStateM.run_get, hplace, hfound]
      rfl

theorem allocateInPlace_eq {aiCore memoryGb : UInt32} :
    (allocateInPlace policy catalog id aiCore memoryGb).run c =
      settled c (c.allocate policy catalog id aiCore memoryGb) := by
  unfold allocateInPlace allocate
  by_cases hwhole : aiCore = 0 ∧ memoryGb = 0
  · rw [if_pos hwhole, if_pos hwhole]
    exact takeWholeInPlace_eq
  · rw [if_neg hwhole, if_neg hwhole]
    cases hfit : c.supported.bestFit aiCore memoryGb with
    | none =>
      simp only [EStateM.run_bind, EStateM.run_get, hfit]
      rfl
    | some t =>
      simp only [EStateM.run_bind, EStateM.run_get, hfit]
      exact carveInPlace_eq

theorem releaseInPlace_eq : (releaseInPlace policy catalog place).run c =
    settled c (.ok (c.release policy catalog place)) := by
  unfold releaseInPlace release
  by_cases hwhole : (((c.allocated[place]?.map (·.kind)) == some .wholeCard) ||
      (c.allocated.eraseIdx place).isEmpty) = true
  · simp only [EStateM.run_bind, EStateM.run_get, EStateM.run_modify, hwhole, if_true]
    rfl
  · simp only [EStateM.run_bind, EStateM.run_get, EStateM.run_modify, hwhole, Bool.false_eq_true, if_false]
    rfl

end Card

namespace Engine

variable {e : Engine} {id : String}

def onCard {α : Type} (key : String) (c : Card) (change : InPlace Card α) : InPlace Engine α := fun e =>
  match change.run c with
  | .ok a c' => .ok a { e with cards := e.cards.insert key c' }
  | .error err c' => .error err { e with cards := e.cards.insert key c' }

def allocateInPlace (id : String) (aiCore memoryGb : UInt32) : InPlace Engine Allocation := do
  let e ← get
  let some (key, c) := e.locate? id | throw (.unknownCard id)
  onCard key c (Card.allocateInPlace e.eligibility e.catalog id aiCore memoryGb)

def releaseInPlace (id : String) : InPlace Engine SliceChange := do
  let e ← get
  let some (key, c, place) := e.holder? id | throw (.unknownSlice id)
  onCard key c (Card.releaseInPlace e.eligibility e.catalog place)

theorem allocateInPlace_eq (aiCore memoryGb : UInt32) : (allocateInPlace id aiCore memoryGb).run e =
    settled e (e.allocate id aiCore memoryGb) := by
  unfold allocateInPlace allocate
  cases hl : e.locate? id with
  | none =>
    simp only [EStateM.run_bind, EStateM.run_get, hl]
    rfl
  | some entry =>
    obtain ⟨key, c⟩ := entry
    have hc : e.device? key = some c := (locate?_some hl).1
    have hcard : (Card.allocateInPlace e.eligibility e.catalog id aiCore memoryGb).run c =
        settled c (c.allocate e.eligibility e.catalog id aiCore memoryGb) := Card.allocateInPlace_eq
    simp only [EStateM.run_bind, EStateM.run_get, hl]
    cases ha : c.allocate e.eligibility e.catalog id aiCore memoryGb with
    | error err =>
      rw [ha] at hcard
      have hsame : onCard key c (Card.allocateInPlace e.eligibility e.catalog id aiCore memoryGb) e =
          .error err { e with cards := e.cards.insert key c } := by
        rw [onCard, hcard]
        rfl
      exact hsame.trans (congrArg _ (insert_eq_self hc))
    | ok granted =>
      rw [ha] at hcard
      show onCard key c _ e = _
      rw [onCard, hcard]
      rfl

theorem releaseInPlace_eq : (releaseInPlace id).run e = settled e (e.release id) := by
  unfold releaseInPlace release
  cases hh : e.holder? id with
  | none =>
    simp only [EStateM.run_bind, EStateM.run_get, hh]
    rfl
  | some found =>
    obtain ⟨key, c, place⟩ := found
    simp only [EStateM.run_bind, EStateM.run_get, hh]
    show onCard key c _ e = _
    rw [onCard, Card.releaseInPlace_eq]
    rfl

end Engine

end SliceAgent
