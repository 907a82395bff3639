/-!
Dictionaries with text keys, held in key order. Two dictionaries that answer every look-up alike
are equal (`Dict.ext_find?`), so states built in different orders can be compared with `=`.
-/
namespace SliceAgent

/-- Replaces the entry of a key, or adds it where the order wants it. -/
def putEntry {β : Type u} (k : String) (v : β) : List (String × β) → List (String × β)
  | [] => [(k, v)]
  | e :: es =>
    if k < e.1 then (k, v) :: e :: es
    else if k = e.1 then (k, v) :: es
    else e :: putEntry k v es

theorem mem_putEntry {β : Type u} {k : String} {v : β} {a : String × β} :
    ∀ {es : List (String × β)}, a ∈ putEntry k v es → a = (k, v) ∨ a ∈ es
  | [], h => by simpa [putEntry] using h
  | e :: es, h => by
    rw [putEntry] at h
    split at h
    · simpa using h
    · split at h
      · rcases List.mem_cons.1 h with h | h
        · exact .inl h
        · exact .inr (List.mem_cons_of_mem _ h)
      · rcases List.mem_cons.1 h with h | h
        · exact .inr (h ▸ List.mem_cons_self)
        · exact (mem_putEntry h).imp id (List.mem_cons_of_mem _)

theorem pairwise_putEntry {β : Type u} (k : String) (v : β) :
    ∀ {es : List (String × β)}, es.Pairwise (fun a b => a.1 < b.1) →
      (putEntry k v es).Pairwise (fun a b => a.1 < b.1)
  | [], _ => by simp [putEntry]
  | e :: es, h => by
    rw [putEntry]
    have ⟨he, hes⟩ := List.pairwise_cons.1 h
    split
    · rename_i hk
      refine List.pairwise_cons.2 ⟨fun a ha => ?_, h⟩
      rcases List.mem_cons.1 ha with rfl | ha
      · exact hk
      · exact String.lt_trans hk (he a ha)
    · rename_i hk
      split
      · rename_i hk'
        exact List.pairwise_cons.2 ⟨fun a ha => hk' ▸ he a ha, hes⟩
      · rename_i hk'
        refine List.pairwise_cons.2 ⟨fun a ha => ?_, pairwise_putEntry k v hes⟩
        rcases mem_putEntry ha with rfl | ha
        · rcases Std.lt_trichotomy e.1 k with h | h | h
          · exact h
          · exact absurd h.symm hk'
          · exact absurd h hk
        · exact he a ha

/-- A dictionary: its entries stand in strictly rising key order. -/
structure Dict (β : Type u) where
  entries : List (String × β)
  sorted : entries.Pairwise (fun a b => a.1 < b.1)
deriving DecidableEq, Repr

namespace Dict

variable {β : Type u} {γ : Type v}

def empty : Dict β := ⟨[], .nil⟩

instance : EmptyCollection (Dict β) := ⟨empty⟩
instance : Inhabited (Dict β) := ⟨empty⟩

def find? (d : Dict β) (k : String) : Option β := d.entries.lookup k

def contains (d : Dict β) (k : String) : Bool := (d.find? k).isSome

def insert (d : Dict β) (k : String) (v : β) : Dict β :=
  ⟨putEntry k v d.entries, pairwise_putEntry k v d.sorted⟩

def filter (d : Dict β) (p : String → β → Bool) : Dict β :=
  ⟨d.entries.filter (fun e => p e.1 e.2), d.sorted.filter _⟩

def erase (d : Dict β) (k : String) : Dict β := d.filter (fun k' _ => k' != k)

def map (d : Dict β) (f : String → β → γ) : Dict γ :=
  ⟨d.entries.map (fun e => (e.1, f e.1 e.2)), List.pairwise_map.2 d.sorted⟩

def keys (d : Dict β) : List String := d.entries.map (·.1)

def values (d : Dict β) : List β := d.entries.map (·.2)

def size (d : Dict β) : Nat := d.entries.length

def isEmpty (d : Dict β) : Bool := d.entries.isEmpty

/-- Enters pairs from left to right; a later pair replaces an earlier one of the same key. -/
def ofList (es : List (String × β)) : Dict β := es.foldl (fun d e => d.insert e.1 e.2) empty

@[simp] theorem find?_empty (k : String) : (empty : Dict β).find? k = none := rfl

theorem lookup_entry (k : String) (e : String × β) (es : List (String × β)) :
    (e :: es).lookup k = if k = e.1 then some e.2 else es.lookup k := by
  obtain ⟨key, v⟩ := e
  rw [List.lookup_cons]
  by_cases h : k = key
  · rw [if_pos h, beq_iff_eq.2 h]
  · rw [if_neg h, beq_false_of_ne h]

theorem lookup_putEntry (k k' : String) (v : β) :
    ∀ es : List (String × β), (putEntry k v es).lookup k' = if k' = k then some v else es.lookup k'
  | [] => by rw [putEntry, lookup_entry]
  | e :: es => by
    have ih := lookup_putEntry k k' v es
    rw [putEntry]
    split
    · rw [lookup_entry]
    · split
      · rename_i hk
        subst hk
        rw [lookup_entry, lookup_entry]
        by_cases h : k' = e.1 <;> simp [h]
      · rename_i hk
        rw [lookup_entry, lookup_entry, ih]
        by_cases h : k' = e.1
        · have hne : k' ≠ k := fun hh => hk (hh ▸ h)
          rw [if_pos h, if_neg hne, if_pos h]
        · rw [if_neg h, if_neg h]

@[simp] theorem find?_insert (d : Dict β) (k k' : String) (v : β) :
    (d.insert k v).find? k' = if k' = k then some v else d.find? k' :=
  lookup_putEntry k k' v d.entries

theorem lookup_eq_none_of_lt {k : String} :
    ∀ {es : List (String × β)}, (∀ e ∈ es, k < e.1) → es.lookup k = none
  | [], _ => rfl
  | e :: es, h => by
    have hk : k ≠ e.1 := fun hk => String.lt_irrefl k (hk ▸ h e List.mem_cons_self)
    rw [lookup_entry, if_neg hk]
    exact lookup_eq_none_of_lt (fun e he => h e (List.mem_cons_of_mem _ he))

theorem lookup_eq_some_iff {k : String} {v : β} :
    ∀ {es : List (String × β)}, es.Pairwise (fun a b => a.1 < b.1) →
      (es.lookup k = some v ↔ (k, v) ∈ es)
  | [], _ => by simp
  | e :: es, h => by
    obtain ⟨he, hes⟩ := List.pairwise_cons.1 h
    rw [lookup_entry, List.mem_cons]
    by_cases hk : k = e.1
    · subst hk
      rw [if_pos rfl, Option.some.injEq]
      constructor
      · rintro rfl
        exact .inl rfl
      · rintro (h | h)
        · exact congrArg Prod.snd h.symm
        · exact absurd (he _ h) (String.lt_irrefl _)
    · rw [if_neg hk, lookup_eq_some_iff hes]
      constructor
      · exact .inr
      · rintro (h | h)
        · exact absurd (congrArg Prod.fst h) hk
        · exact h

theorem find?_eq_some_iff {d : Dict β} {k : String} {v : β} :
    d.find? k = some v ↔ (k, v) ∈ d.entries := lookup_eq_some_iff d.sorted

theorem contains_iff {d : Dict β} {k : String} : d.contains k = true ↔ k ∈ d.keys := by
  simp only [contains, Option.isSome_iff_exists, find?_eq_some_iff, keys, List.mem_map]
  exact ⟨fun ⟨v, h⟩ => ⟨_, h, rfl⟩, fun ⟨⟨_, v⟩, h, hk⟩ => ⟨v, hk ▸ h⟩⟩

@[simp] theorem find?_filter (d : Dict β) (p : String → β → Bool) (k : String) :
    (d.filter p).find? k = (d.find? k).filter (p k) := by
  apply Option.ext
  intro v
  simp only [find?_eq_some_iff, filter, List.mem_filter, Option.filter_eq_some_iff]

@[simp] theorem find?_erase (d : Dict β) (k k' : String) :
    (d.erase k).find? k' = if k' = k then none else d.find? k' := by
  rw [erase, find?_filter]
  by_cases h : k' = k
  · subst h; cases d.find? k' <;> simp
  · cases hd : d.find? k' <;> simp [h]

theorem lookup_map (f : String → β → γ) (k : String) :
    ∀ es : List (String × β),
      (es.map (fun e => (e.1, f e.1 e.2))).lookup k = (es.lookup k).map (f k)
  | [] => rfl
  | e :: es => by
    rw [List.map_cons, lookup_entry, lookup_entry, lookup_map f k es]
    by_cases h : k = e.1 <;> simp [h]

@[simp] theorem find?_map (d : Dict β) (f : String → β → γ) (k : String) :
    (d.map f).find? k = (d.find? k).map (f k) := lookup_map f k d.entries

theorem eq_of_lookup {xs ys : List (String × β)} (hx : xs.Pairwise (fun a b => a.1 < b.1))
    (hy : ys.Pairwise (fun a b => a.1 < b.1)) (h : ∀ k, xs.lookup k = ys.lookup k) : xs = ys := by
  induction xs generalizing ys with
  | nil =>
    cases ys with
    | nil => rfl
    | cons y ys => simpa [lookup_entry] using h y.1
  | cons x xs ih =>
    cases ys with
    | nil => simpa [lookup_entry] using h x.1
    | cons y ys =>
      obtain ⟨hxx, hxs⟩ := List.pairwise_cons.1 hx
      obtain ⟨hyy, hys⟩ := List.pairwise_cons.1 hy
      have hle : ∀ {a b : String × β} {as bs : List (String × β)},
          (∀ e ∈ bs, b.1 < e.1) → (∀ k, (a :: as).lookup k = (b :: bs).lookup k) → ¬ a.1 < b.1 := by
        intro a b as bs hb h hab
        have h1 : (a :: as).lookup a.1 = some a.2 := by simp [lookup_entry]
        have h2 : (b :: bs).lookup a.1 = none := lookup_eq_none_of_lt fun e he => by
          rcases List.mem_cons.1 he with rfl | he
          · exact hab
          · exact String.lt_trans hab (hb e he)
        rw [h, h2] at h1
        cases h1
      have hk : x.1 = y.1 := by
        rcases Std.lt_trichotomy x.1 y.1 with hlt | heq | hlt
        · exact absurd hlt (hle hyy h)
        · exact heq
        · exact absurd hlt (hle hxx fun k => (h k).symm)
      have hv : x.2 = y.2 := by
        have := h x.1
        simpa [lookup_entry, hk] using this
      have hrest : xs = ys := ih hxs hys fun k => by
        by_cases hkx : k = x.1
        · rw [hkx, lookup_eq_none_of_lt hxx, hk, lookup_eq_none_of_lt hyy]
        · have := h k
          simpa [lookup_entry, hkx, show k ≠ y.1 from hk ▸ hkx] using this
      rw [hrest, show x = y from Prod.ext hk hv]

theorem ext_find? {d e : Dict β} (h : ∀ k, d.find? k = e.find? k) : d = e := by
  have : d.entries = e.entries := eq_of_lookup d.sorted e.sorted h
  cases d; cases e; cases this; rfl

theorem insert_insert_comm (d : Dict β) {k k' : String} (h : k ≠ k') (v v' : β) :
    (d.insert k v).insert k' v' = (d.insert k' v').insert k v :=
  ext_find? fun x => by
    simp only [find?_insert]
    by_cases hx : x = k' <;> by_cases hy : x = k <;> simp_all

end Dict

end SliceAgent
