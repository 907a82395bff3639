import SliceAgent.Dict

/-! What dictionaries hold: their keys and values by look-up, and what is entered in turn. -/
namespace SliceAgent.Dict

variable {β : Type u} {γ : Type v}

theorem mem_values {d : Dict β} {v : β} : v ∈ d.values ↔ ∃ k, d.find? k = some v := by
  simp only [values, List.mem_map, Prod.exists, exists_eq_right, find?_eq_some_iff]

theorem keys_nodup (d : Dict β) : d.keys.Nodup := by
  have hsorted : d.keys.Pairwise (· < ·) := List.pairwise_map.2 d.sorted
  refine hsorted.imp fun {a b} h => ?_
  rintro rfl
  exact String.lt_irrefl a h

theorem exists_find?_insert {d : Dict β} {key : String} {v : β} {p : β → Prop} :
    (∃ k w, (d.insert key v).find? k = some w ∧ p w) ↔
      p v ∨ ∃ k w, k ≠ key ∧ d.find? k = some w ∧ p w := by
  simp only [find?_insert]
  constructor
  · rintro ⟨k, w, hw, hp⟩
    split at hw
    · cases hw
      exact .inl hp
    · rename_i hk
      exact .inr ⟨k, w, hk, hw, hp⟩
  · rintro (hp | ⟨k, w, hk, hw, hp⟩)
    · exact ⟨key, v, if_pos rfl, hp⟩
    · exact ⟨k, w, (if_neg hk).trans hw, hp⟩

@[simp] theorem contains_insert (d : Dict β) (k k' : String) (v : β) :
    (d.insert k v).contains k' = (k' == k || d.contains k') := by
  rw [contains, contains, find?_insert]
  by_cases h : k' = k <;> simp [h]

theorem foldl_insert_contains (es : List (String × β)) (d : Dict β) (k : String) :
    (es.foldl (fun d e => d.insert e.1 e.2) d).contains k = true ↔
      d.contains k = true ∨ ∃ v, (k, v) ∈ es := by
  induction es generalizing d with
  | nil => simp
  | cons e es ih =>
    rw [List.foldl_cons, ih]
    obtain ⟨k', v'⟩ := e
    simp only [contains_insert, Bool.or_eq_true, beq_iff_eq, List.mem_cons, Prod.mk.injEq]
    constructor
    · rintro ((rfl | h) | ⟨v, h⟩)
      · exact .inr ⟨v', .inl ⟨rfl, rfl⟩⟩
      · exact .inl h
      · exact .inr ⟨v, .inr h⟩
    · rintro (h | ⟨v, ⟨rfl, rfl⟩ | h⟩)
      · exact .inl (.inr h)
      · exact .inl (.inl rfl)
      · exact .inr ⟨v, h⟩

theorem contains_ofList {es : List (String × β)} {k : String} :
    (ofList es).contains k = true ↔ ∃ v, (k, v) ∈ es := by
  rw [ofList, foldl_insert_contains]
  simp [contains]

theorem mem_keys_ofNames {names : List String} {k : String} :
    k ∈ (ofList (names.map fun name => (name, ()))).keys ↔ k ∈ names := by
  rw [← contains_iff, contains_ofList]
  simp

theorem lookup_foldl_insert (es : List (String × β)) (d : Dict β) (k : String)
    (h : es.Pairwise fun a b => a.1 < b.1) :
    (es.foldl (fun d e => d.insert e.1 e.2) d).find? k = (es.lookup k).or (d.find? k) := by
  induction es generalizing d with
  | nil => rfl
  | cons e es ih =>
    obtain ⟨he, hes⟩ := List.pairwise_cons.1 h
    rw [List.foldl_cons, ih _ hes, find?_insert]
    by_cases hk : k = e.1
    · rw [hk, lookup_eq_none_of_lt he]
      simp [lookup_entry]
    · simp [lookup_entry, hk]

theorem ofList_entries (d : Dict β) : ofList d.entries = d := by
  refine ext_find? fun k => ?_
  rw [ofList, lookup_foldl_insert _ _ _ d.sorted, find?_empty, Option.or_none]
  rfl

theorem keys_eq_of_contains {d : Dict β} {e : Dict γ} (h : ∀ k, d.contains k = e.contains k) :
    d.keys = e.keys := by
  have hunit : d.map (fun _ _ => ()) = e.map (fun _ _ => ()) := by
    refine ext_find? fun k => ?_
    rw [find?_map, find?_map]
    have hk := h k
    rw [contains, contains] at hk
    cases hd : d.find? k <;> cases he : e.find? k <;> simp_all
  have hkeys := congrArg keys hunit
  simp only [keys, map, List.map_map] at hkeys
  exact hkeys

end SliceAgent.Dict
