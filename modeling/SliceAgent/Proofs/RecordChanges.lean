import Mathlib.Data.List.Nodup
import Mathlib.Logic.Relation
import SliceAgent.Proofs.FieldValues

/-!
Changes of a written record that make no difference to what is read from it: members that name no field come
or change, fields that say no more than an absent one are left out, and the values of fields change in the
same ways themselves. A record keeps what is read from it if every field does (`Decoder.keeps_record`). It
does so as well if the members of every object are sorted (`Decoder.keeps_sorting_record`).
-/
namespace SliceAgent

variable {α β : Type}

structure FieldForm where
  name : String
  /-- What one change makes of its value. -/
  inside : Json → Json → Prop
  /-- The values that it may be left out with. -/
  spare : Json → Prop

namespace FieldForm

def required (name : String) (inside : Json → Json → Prop) : FieldForm := ⟨name, inside, fun _ => False⟩

def defaulted (name : String) (dec : Decoder α) (absent : α) (inside : Json → Json → Prop) : FieldForm :=
  ⟨name, inside, fun j => dec .json (Doc.ofJson j) = .ok absent⟩

def optional (name : String) (dec : Decoder α) (inside : Json → Json → Prop) : FieldForm :=
  defaulted name dec.optional none inside

def list (name : String) (dec : Decoder α) (inside : Json → Json → Prop) : FieldForm :=
  defaulted name dec.list [] inside

end FieldForm

def Unchanging : Json → Json → Prop := fun _ _ => False

inductive ListChange (inside : Json → Json → Prop) : Json → Json → Prop
  | item (js ks : List Json) {j j' : Json} (h : inside j j') :
    ListChange inside (.arr (js ++ j :: ks)) (.arr (js ++ j' :: ks))

inductive MemberChange (form : List FieldForm) : List (String × Json) → List (String × Json) → Prop
  | add (ms ns : List (String × Json)) {k : String} (j : Json) (hk : k ∉ form.map (·.name)) :
    MemberChange form (ms ++ ns) (ms ++ (k, j) :: ns)
  | unread (ms ns : List (String × Json)) {k : String} (j j' : Json) (hk : k ∉ form.map (·.name)) :
    MemberChange form (ms ++ (k, j) :: ns) (ms ++ (k, j') :: ns)
  | leaveOut (ms ns : List (String × Json)) {p : FieldForm} {j : Json} (hp : p ∈ form) (hj : p.spare j) :
    MemberChange form (ms ++ (p.name, j) :: ns) (ms ++ ns)
  | inside (ms ns : List (String × Json)) {p : FieldForm} {j j' : Json} (hp : p ∈ form)
    (hj : p.inside j j') : MemberChange form (ms ++ (p.name, j) :: ns) (ms ++ (p.name, j') :: ns)

/-- One change in a record that is written as a list. There a field goes by its place, and only the last one
can be left out. -/
inductive ItemChange : List FieldForm → List Json → List Json → Prop
  | inside {p : FieldForm} {ps : List FieldForm} {j j' : Json} (js : List Json) (hj : p.inside j j') :
    ItemChange (p :: ps) (j :: js) (j' :: js)
  | leaveOut {p : FieldForm} {ps : List FieldForm} {j : Json} (hj : p.spare j) : ItemChange (p :: ps) [j] []
  | further {p : FieldForm} {ps : List FieldForm} {js ks : List Json} (j : Json) (h : ItemChange ps js ks) :
    ItemChange (p :: ps) (j :: js) (j :: ks)

inductive RecordChange (form : List FieldForm) : Json → Json → Prop
  | members {ms ns : List (String × Json)} (h : MemberChange form ms ns) :
    RecordChange form (.obj ms) (.obj ns)
  | items {js ks : List Json} (h : ItemChange form js ks) : RecordChange form (.arr js) (.arr ks)

theorem RecordChange.null_iff {form : List FieldForm} {j j' : Json} (h : RecordChange form j j') :
    j = .null ↔ j' = .null := by
  cases h with
  | members => exact ⟨nofun, nofun⟩
  | items => exact ⟨nofun, nofun⟩

section Values

variable {p : FieldForm} {form : List FieldForm} {ms ns : List (String × Json)}

inductive FieldForm.Changes (p : FieldForm) : List Json → List Json → Prop
  | same (js : List Json) : p.Changes js js
  | leaveOut (js ks : List Json) {j : Json} (h : p.spare j) : p.Changes (js ++ j :: ks) (js ++ ks)
  | inside (js ks : List Json) {j j' : Json} (h : p.inside j j') :
    p.Changes (js ++ j :: ks) (js ++ j' :: ks)

theorem MemberChange.changes (h : MemberChange form ms ns) (hnames : (form.map (·.name)).Nodup)
    (hp : p ∈ form) : p.Changes (valuesAt p.name ms) (valuesAt p.name ns) := by
  have hother : ∀ {k : String}, k ∉ form.map (·.name) → k ≠ p.name := by
    rintro k hk rfl
    exact hk (List.mem_map_of_mem hp)
  have heither : ∀ {q : FieldForm}, q ∈ form → q = p ∨ q.name ≠ p.name := fun hq =>
    or_iff_not_imp_right.2 fun hname => List.inj_on_of_nodup_map hnames hq hp (not_not.1 hname)
  cases h with
  | add ms ns j hk =>
    rw [valuesAt_append, valuesAt_append, valuesAt_cons_other j (hother hk)]
    exact .same _
  | unread ms ns j j' hk =>
    rw [valuesAt_append, valuesAt_append, valuesAt_cons_other j (hother hk),
      valuesAt_cons_other j' (hother hk)]
    exact .same _
  | @leaveOut ms ns q j hq hj =>
    rw [valuesAt_append, valuesAt_append]
    rcases heither hq with rfl | hname
    · rw [valuesAt_cons_self]
      exact .leaveOut _ _ hj
    · rw [valuesAt_cons_other j hname]
      exact .same _
  | @inside ms ns q j j' hq hj =>
    rw [valuesAt_append, valuesAt_append]
    rcases heither hq with rfl | hname
    · rw [valuesAt_cons_self, valuesAt_cons_self]
      exact .inside _ _ hj
    · rw [valuesAt_cons_other j hname, valuesAt_cons_other j' hname]
      exact .same _

end Values

namespace Decoder

variable {dec : Decoder α} {change : Json → Json → Prop}

/-- The changes make no difference to what is read. -/
def Keeps (dec : Decoder α) (change : Json → Json → Prop) : Prop :=
  ∀ ⦃j j' : Json⦄ ⦃a : α⦄, change j j' → dec .json (Doc.ofJson j) = .ok a →
    dec .json (Doc.ofJson j') = .ok a

theorem keeps_unchanging (dec : Decoder α) : dec.Keeps Unchanging := fun _ _ _ h => h.elim

theorem Keeps.steps (h : dec.Keeps change) : dec.Keeps (Relation.ReflTransGen change) := by
  intro j j' a hsteps hread
  induction hsteps with
  | refl => exact hread
  | tail _ hstep ih => exact h hstep ih

theorem mapM_cons_ok_iff {σ τ : Type} {f : σ → Decoded τ} {x : σ} {xs : List σ} {ys : List τ} :
    (x :: xs).mapM f = .ok ys ↔ ∃ y zs, f x = .ok y ∧ xs.mapM f = .ok zs ∧ ys = y :: zs := by
  rw [List.mapM_cons]
  cases f x with
  | error err => exact ⟨nofun, nofun⟩
  | ok y =>
    cases xs.mapM f with
    | error err => exact ⟨nofun, nofun⟩
    | ok zs =>
      constructor
      · intro h
        exact ⟨y, zs, rfl, rfl, (Except.ok.inj h).symm⟩
      · rintro ⟨_, _, hy, hzs, rfl⟩
        cases hy
        cases hzs
        rfl

theorem Keeps.list (h : dec.Keeps change) : dec.list.Keeps (ListChange change) := by
  rintro _ _ as ⟨js, ks, hj⟩ hread
  show (Doc.ofItems _).mapM (dec .json) = .ok as
  have hread : (Doc.ofItems _).mapM (dec .json) = .ok as := hread
  induction js generalizing as with
  | nil =>
    obtain ⟨a, bs, ha, hbs, rfl⟩ := mapM_cons_ok_iff.1 hread
    exact mapM_cons_ok_iff.2 ⟨a, bs, h hj ha, hbs, rfl⟩
  | cons i js ih =>
    obtain ⟨a, bs, ha, hbs, rfl⟩ := mapM_cons_ok_iff.1 hread
    exact mapM_cons_ok_iff.2 ⟨a, bs, ha, ih hbs hbs, rfl⟩

theorem Keeps.optional (h : dec.Keeps change) (hnull : ∀ j j', change j j' → (j = .null ↔ j' = .null)) :
    dec.optional.Keeps change := by
  intro j j' a hj hread
  have hdoc : ∀ {j : Json}, j ≠ .null → Doc.ofJson j ≠ .null := by
    intro j hj
    cases j <;> first | exact absurd rfl hj | exact Doc.noConfusion
  by_cases hj₁ : j = .null
  · rw [(hnull j j' hj).1 hj₁]
    rwa [hj₁] at hread
  · have hj₂ : j' ≠ .null := fun hj₂ => hj₁ ((hnull j j' hj).2 hj₂)
    rw [optional.eq_2 _ _ _ (hdoc hj₁)] at hread
    rw [optional.eq_2 _ _ _ (hdoc hj₂)]
    cases hb : dec .json (Doc.ofJson j) with
    | error err =>
      rw [hb] at hread
      cases hread
    | ok b =>
      rw [hb] at hread
      rw [h hj hb]
      exact hread

end Decoder

namespace FieldForm

variable {p : FieldForm} {dec : Decoder α} {absent : Option α} {inside : Json → Json → Prop}
  {ms ns : List (String × Json)} {a : α}

/-- The changes of a field do not show to its reader. -/
structure Fits (p : FieldForm) (dec : Decoder α) (absent : Option α) : Prop where
  inside : dec.Keeps p.inside
  spare : ∀ ⦃j : Json⦄, p.spare j → ∃ a, absent = some a ∧ dec .json (Doc.ofJson j) = .ok a

theorem fits_required (name : String) (h : dec.Keeps inside) : (required name inside).Fits dec none :=
  ⟨h, fun _ hj => hj.elim⟩

theorem fits_defaulted (name : String) (a : α) (h : dec.Keeps inside) :
    (defaulted name dec a inside).Fits dec (some a) :=
  ⟨h, fun _ hj => ⟨a, rfl, hj⟩⟩

theorem append_cons_eq_singleton {js ks : List Json} {i j : Json} :
    js ++ j :: ks = [i] ↔ js = [] ∧ j = i ∧ ks = [] := by
  cases js <;> simp

theorem Fits.reads (h : p.Fits dec absent) (hc : p.Changes (valuesAt p.name ms) (valuesAt p.name ns))
    (hr : (Fields.field p.name dec absent).Reads ms a) : (Fields.field p.name dec absent).Reads ns a := by
  rw [Fields.reads_field_iff] at hr ⊢
  generalize valuesAt p.name ms = before at hc hr
  generalize valuesAt p.name ns = after at hc ⊢
  cases hc with
  | same => exact hr
  | @leaveOut js ks j hj =>
    rcases hr with ⟨hnone, -⟩ | ⟨i, hone, hi⟩
    · simp at hnone
    · obtain ⟨rfl, rfl, rfl⟩ := append_cons_eq_singleton.1 hone
      obtain ⟨b, habsent, hb⟩ := h.spare hj
      cases hb.symm.trans hi
      exact .inl ⟨rfl, habsent⟩
  | @inside js ks j j' hj =>
    rcases hr with ⟨hnone, -⟩ | ⟨i, hone, hi⟩
    · simp at hnone
    · obtain ⟨rfl, rfl, rfl⟩ := append_cons_eq_singleton.1 hone
      exact .inr ⟨j', rfl, h.inside hj hi⟩

end FieldForm

namespace Fields

variable {f : Fields (α → β)} {x : Fields α} {p : FieldForm} {ps qs : List FieldForm} {dec : Decoder α}
  {absent : Option α}

/-- The fields have the names of a form, and its changes do not show to their reader. What they leave of a
list has been changed by the fields behind them at most. -/
structure Follows (x : Fields α) (ps : List FieldForm) : Prop where
  names : ∀ k, (x.enter? k).isSome = true ↔ k ∈ ps.map (·.name)
  members : ∀ ⦃ms ns : List (String × Json)⦄ ⦃a : α⦄,
    (∀ p ∈ ps, p.Changes (valuesAt p.name ms) (valuesAt p.name ns)) → x.Reads ms a → x.Reads ns a
  items : ∀ ⦃short : Nat → DecodeError⦄ ⦃position : Nat⦄ ⦃js ks : List Json⦄ ⦃further : List FieldForm⦄
    ⦃a : α⦄ ⦃rest : List Doc⦄, ItemChange (ps ++ further) js ks →
    x.fromItems short .json position (Doc.ofItems js) = .ok (a, rest) →
    ∃ rest', x.fromItems short .json position (Doc.ofItems ks) = .ok (a, rest') ∧
      (rest' = rest ∨
        ∃ rs rs', rest = Doc.ofItems rs ∧ rest' = Doc.ofItems rs' ∧ ItemChange further rs rs')

theorem follows_pure (a : α) : (Fields.pure a).Follows [] where
  names k := ⟨nofun, nofun⟩
  members ms ns b _ h := reads_pure_iff.2 (reads_pure_iff.1 h)
  items short position js ks further b rest hc h := by
    cases h
    exact ⟨_, rfl, .inr ⟨js, ks, rfl, rfl, hc⟩⟩

theorem follows_field (h : p.Fits dec absent) : (field p.name dec absent).Follows [p] where
  names k := by
    simp only [field]
    split <;> simp_all
  members ms ns a hc hr := h.reads (hc p List.mem_cons_self) hr
  items short position js ks further a rest hc hr := by
    cases hc with
    | @inside _ _ j j' js hj =>
      obtain ⟨ha, rfl⟩ := fromItems_cons_ok_iff.1 hr
      exact ⟨_, fromItems_cons_ok_iff.2 ⟨h.inside hj ha, rfl⟩, .inl rfl⟩
    | leaveOut hj =>
      obtain ⟨ha, rfl⟩ := fromItems_cons_ok_iff.1 hr
      obtain ⟨b, rfl, hb⟩ := h.spare hj
      cases hb.symm.trans ha
      exact ⟨[], rfl, .inl rfl⟩
    | @further _ _ js ks j hc =>
      obtain ⟨ha, rfl⟩ := fromItems_cons_ok_iff.1 hr
      exact ⟨_, fromItems_cons_ok_iff.2 ⟨ha, rfl⟩, .inr ⟨js, ks, rfl, rfl, hc⟩⟩

theorem Follows.apart (hf : f.Follows ps) (hx : x.Follows qs)
    (hd : ∀ k ∈ ps.map (·.name), k ∉ qs.map (·.name)) : f.Apart x := by
  intro k hk
  have hname := hd k ((hf.names k).1 hk)
  rwa [← hx.names, Bool.not_eq_true, Option.isSome_eq_false_iff, Option.isNone_iff_eq_none] at hname

theorem Follows.seq (hf : f.Follows ps) (hx : x.Follows qs)
    (hd : ∀ k ∈ ps.map (·.name), k ∉ qs.map (·.name)) : (f.seq x).Follows (ps ++ qs) where
  names k := by
    rw [List.map_append, List.mem_append, ← hf.names, ← hx.names]
    simp only [Fields.seq]
    cases f.enter? k <;> cases x.enter? k <;> simp
  members ms ns b hc h := by
    have happart := hf.apart hx hd
    obtain ⟨g, a, hg, ha, rfl⟩ := (reads_seq_iff happart).1 h
    have hleft := hf.members (fun p hp => hc p (List.mem_append_left _ hp)) hg
    have hright := hx.members (fun p hp => hc p (List.mem_append_right _ hp)) ha
    exact (reads_seq_iff happart).2 ⟨g, a, hleft, hright, rfl⟩
  items short position js ks further b rest hc h := by
    obtain ⟨g, a, middle, hg, ha, rfl⟩ := fromItems_seq_ok_iff.1 h
    rw [List.append_assoc] at hc
    obtain ⟨middle', hg', rfl | ⟨rs, rs', rfl, rfl, hrs⟩⟩ := hf.items hc hg
    · exact ⟨rest, fromItems_seq_ok_iff.2 ⟨g, a, middle', hg', ha, rfl⟩, .inl rfl⟩
    · obtain ⟨rest', ha', hrest⟩ := hx.items hrs ha
      exact ⟨rest', fromItems_seq_ok_iff.2 ⟨g, a, _, hg', ha', rfl⟩, hrest⟩

theorem Follows.field (hf : f.Follows ps) (hp : p.Fits dec absent) (hname : p.name ∉ ps.map (·.name)) :
    (f.seq (Fields.field p.name dec absent)).Follows (ps ++ [p]) := by
  refine hf.seq (follows_field hp) ?_
  rintro k hk hself
  rw [List.map_singleton, List.mem_singleton] at hself
  exact hname (hself ▸ hk)

end Fields

theorem Decoder.keeps_record {x : Fields α} {form : List FieldForm} (name : String) (h : x.Follows form)
    (hnames : (form.map (·.name)).Nodup) : (record name x).Keeps (RecordChange form) := by
  intro j j' a hc hread
  cases hc with
  | members hc => exact h.members (fun p hp => hc.changes hnames hp) hread
  | @items js ks hc =>
    rw [← List.append_nil form] at hc
    obtain ⟨rest', hks, rfl | ⟨rs, rs', -, -, hrs⟩⟩ := h.items hc (record_items_ok_iff.1 hread)
    · exact record_items_ok_iff.2 hks
    · cases hrs

/-- The members of every object are sorted. -/
def Sorting : Json → Json → Prop := fun j j' => j' = j.canonical

theorem Sorting.null_iff {j j' : Json} (h : Sorting j j') : j = .null ↔ j' = .null := by
  cases h
  cases j with
  | null => exact Iff.rfl
  | _ => exact ⟨nofun, nofun⟩

section Values

variable {name k : String} {es ms : List (String × Json)} {j : Json}

theorem valuesAt_putEntry_other (hk : k ≠ name) : valuesAt name (putEntry k j es) = valuesAt name es := by
  induction es with
  | nil => exact valuesAt_cons_other j hk
  | cons e es ih =>
    rw [putEntry]
    split_ifs with hlt heq
    · exact valuesAt_cons_other j hk
    · rw [valuesAt_cons_other j hk, ← valuesAt_cons_other e.2 hk, heq]
    · by_cases he : e.1 = name
      · subst he
        exact (valuesAt_cons_self e.2).trans (congrArg (e.2 :: ·) ih |>.trans (valuesAt_cons_self e.2).symm)
      · exact (valuesAt_cons_other e.2 he).trans (ih.trans (valuesAt_cons_other e.2 he).symm)

theorem valuesAt_putEntry_self (h : valuesAt name es = []) : valuesAt name (putEntry name j es) = [j] := by
  induction es with
  | nil => exact valuesAt_cons_self j
  | cons e es ih =>
    obtain ⟨he, hes⟩ := valuesAt_cons_eq_nil.1 h
    rw [putEntry]
    split_ifs with hlt heq
    · rw [valuesAt_cons_self, h]
    · exact absurd heq.symm he
    · exact (valuesAt_cons_other e.2 he).trans (ih hes)

theorem valuesAt_canonicalMembers_of_none (h : valuesAt name ms = []) :
    valuesAt name (Json.canonicalMembers es ms) = valuesAt name es := by
  induction ms generalizing es with
  | nil => rw [Json.canonicalMembers]
  | cons m ms ih =>
    obtain ⟨hm, hms⟩ := valuesAt_cons_eq_nil.1 h
    rw [Json.canonicalMembers, ih hms, valuesAt_putEntry_other hm]

theorem valuesAt_canonicalMembers_of_one (hes : valuesAt name es = []) (h : valuesAt name ms = [j]) :
    valuesAt name (Json.canonicalMembers es ms) = [j.canonical] := by
  induction ms generalizing es with
  | nil => cases h
  | cons m ms ih =>
    rw [Json.canonicalMembers]
    by_cases hm : m.1 = name
    · subst hm
      obtain ⟨rfl, hms⟩ := List.cons.inj ((valuesAt_cons_self m.2).symm.trans h)
      rw [valuesAt_canonicalMembers_of_none hms, valuesAt_putEntry_self hes]
    · have hms : valuesAt name ms = [j] := (valuesAt_cons_other m.2 hm).symm.trans h
      refine ih ?_ hms
      rw [valuesAt_putEntry_other hm, hes]

end Values

namespace Fields

variable {f : Fields (α → β)} {x : Fields α} {dec : Decoder α} {absent : Option α} {name : String}

/-- The fields read the same from sorted members, and of a list they leave what is to be sorted behind them. -/
structure Sorts (x : Fields α) : Prop where
  members : ∀ ⦃ms : List (String × Json)⦄ ⦃a : α⦄, x.Reads ms a → x.Reads (Json.canonicalMembers [] ms) a
  items : ∀ ⦃short : Nat → DecodeError⦄ ⦃position : Nat⦄ ⦃js : List Json⦄ ⦃a : α⦄ ⦃rest : List Doc⦄,
    x.fromItems short .json position (Doc.ofItems js) = .ok (a, rest) →
    ∃ rs, rest = Doc.ofItems rs ∧
      x.fromItems short .json position (Doc.ofItems (Json.canonicalItems js)) =
        .ok (a, Doc.ofItems (Json.canonicalItems rs))

theorem sorts_pure (a : α) : (Fields.pure a).Sorts where
  members ms b h := reads_pure_iff.2 (reads_pure_iff.1 h)
  items short position js b rest h := by
    cases h
    exact ⟨js, rfl, rfl⟩

theorem sorts_field (h : dec.Keeps Sorting) : (field name dec absent).Sorts where
  members ms a hr := by
    rw [reads_field_iff] at hr ⊢
    rcases hr with ⟨hnone, habsent⟩ | ⟨j, hone, hj⟩
    · exact .inl ⟨valuesAt_canonicalMembers_of_none hnone, habsent⟩
    · exact .inr ⟨j.canonical, valuesAt_canonicalMembers_of_one rfl hone, h rfl hj⟩
  items short position js a rest hr := by
    cases js with
    | nil =>
      cases absent with
      | none => cases hr
      | some b =>
        cases hr
        exact ⟨[], rfl, rfl⟩
    | cons j js =>
      obtain ⟨hj, rfl⟩ := fromItems_cons_ok_iff.1 hr
      exact ⟨js, rfl, fromItems_cons_ok_iff.2 ⟨h rfl hj, rfl⟩⟩

theorem Sorts.seq (hf : f.Sorts) (hx : x.Sorts) (hd : f.Apart x) : (f.seq x).Sorts where
  members ms b h := by
    obtain ⟨g, a, hg, ha, rfl⟩ := (reads_seq_iff hd).1 h
    exact (reads_seq_iff hd).2 ⟨g, a, hf.members hg, hx.members ha, rfl⟩
  items short position js b rest h := by
    obtain ⟨g, a, middle, hg, ha, rfl⟩ := fromItems_seq_ok_iff.1 h
    obtain ⟨rs, rfl, hg'⟩ := hf.items hg
    obtain ⟨rs, rfl, ha'⟩ := hx.items ha
    exact ⟨rs, rfl, fromItems_seq_ok_iff.2 ⟨g, a, _, hg', ha', rfl⟩⟩

theorem Sorts.field (hf : f.Sorts) (h : dec.Keeps Sorting) (hname : (f.enter? name).isNone = true) :
    (f.seq (Fields.field name dec absent)).Sorts := by
  refine hf.seq (sorts_field h) fun k hk => if_neg ?_
  rintro rfl
  rw [Option.isNone_iff_eq_none.1 hname] at hk
  cases hk

end Fields

namespace Decoder

variable {dec : Decoder α} {x : Fields α}

theorem keeps_sorting_string : string.Keeps Sorting := by
  rintro j _ a rfl h
  cases j with
  | str s => exact h
  | _ => cases h

theorem keeps_sorting_value : value.Keeps Sorting := by
  rintro j _ a rfl h
  rw [value, Doc.value?_ofJson] at h ⊢
  rw [j.canonical_canonical]
  exact h

theorem Keeps.sorting_list (h : dec.Keeps Sorting) : dec.list.Keeps Sorting := by
  rintro j _ as rfl hread
  cases j with
  | arr js =>
    show (Doc.ofItems (Json.canonicalItems js)).mapM (dec .json) = .ok as
    have hread : (Doc.ofItems js).mapM (dec .json) = .ok as := hread
    induction js generalizing as with
    | nil => exact hread
    | cons j js ih =>
      obtain ⟨a, bs, ha, hbs, rfl⟩ := mapM_cons_ok_iff.1 hread
      exact mapM_cons_ok_iff.2 ⟨a, bs, h rfl ha, ih hbs hbs, rfl⟩
  | _ => cases hread

theorem keeps_sorting_record (name : String) (h : x.Sorts) : (record name x).Keeps Sorting := by
  rintro j _ a rfl hread
  cases j with
  | obj ms => exact h.members hread
  | arr js =>
    obtain ⟨rs, hrs, hread'⟩ := h.items (record_items_ok_iff.1 hread)
    cases rs with
    | nil => exact record_items_ok_iff.2 hread'
    | cons j rs => cases hrs
  | _ => cases hread

end Decoder

end SliceAgent
