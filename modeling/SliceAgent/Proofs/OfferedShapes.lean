import Mathlib.Data.List.Nodup
import SliceAgent.DeviceClass.Predefined
import SliceAgent.Proofs.Dict

/-!
What the predefined classes are made for: every model of the cards once (`nodup_modelNames`), and for every
shape that a card offers one template (`exists_mem_shapes`, `eq_of_shapes`).
-/
namespace SliceAgent

namespace Template

variable {a b c : Template}

theorem smallerThan_iff :
    a.smallerThan b = true ↔ a.aiCore < b.aiCore ∨ a.aiCore = b.aiCore ∧ a.memoryGb < b.memoryGb := by
  simp only [smallerThan, Bool.or_eq_true, Bool.and_eq_true, decide_eq_true_eq, beq_iff_eq]

theorem smallerThan_trans (hab : a.smallerThan b = true) (hbc : b.smallerThan c = true) :
    a.smallerThan c = true := by
  rw [smallerThan_iff] at *
  rcases hab with hab | ⟨hab, hmemory⟩
  · rcases hbc with hbc | ⟨hbc, -⟩
    · exact .inl (UInt32.lt_trans hab hbc)
    · exact .inl (hbc ▸ hab)
  · rcases hbc with hbc | ⟨hbc, hmemory'⟩
    · exact .inl (hab ▸ hbc)
    · exact .inr ⟨hab.trans hbc, UInt32.lt_trans hmemory hmemory'⟩

theorem capacity_ne_of_smallerThan (h : a.smallerThan b = true) : a.capacity ≠ b.capacity := by
  intro hsame
  obtain ⟨hcore, hmemory⟩ := Capacity.mk.inj hsame
  rcases smallerThan_iff.1 h with hlt | ⟨-, hlt⟩
  · exact UInt32.lt_irrefl _ (hcore ▸ hlt)
  · exact UInt32.lt_irrefl _ (hmemory ▸ hlt)

theorem capacity_eq_of_not_smallerThan (hab : ¬ a.smallerThan b = true)
    (hba : ¬ b.smallerThan a = true) : a.capacity = b.capacity := by
  rw [smallerThan_iff] at hab hba
  have hcore : a.aiCore = b.aiCore := by
    by_contra hne
    exact (UInt32.lt_or_lt_of_ne hne).elim (fun h => hab (.inl h)) fun h => hba (.inl h)
  have hmemory : a.memoryGb = b.memoryGb := by
    by_contra hne
    exact (UInt32.lt_or_lt_of_ne hne).elim (fun h => hab (.inr ⟨hcore, h⟩)) fun h =>
      hba (.inr ⟨hcore.symm, h⟩)
  rw [capacity, capacity, hcore, hmemory]

end Template

section Shapes

variable {ss ts : List Template} {t u : Template}

theorem mem_enterShape (h : u ∈ enterShape ss t) : u = t ∨ u ∈ ss := by
  fun_induction enterShape ss t with
  | case1 t => exact .inl (List.mem_singleton.1 h)
  | case2 s ss t hlt => exact List.mem_cons.1 h
  | case3 s ss t hnlt hlt ih =>
    rcases List.mem_cons.1 h with rfl | h
    · exact .inr List.mem_cons_self
    · exact (ih h).imp_right (List.mem_cons_of_mem s)
  | case4 s ss t hnlt hngt => exact .inr h

theorem mem_enterShape_of_mem (h : u ∈ ss) : u ∈ enterShape ss t := by
  fun_induction enterShape ss t with
  | case1 t => cases h
  | case2 s ss t hlt => exact List.mem_cons_of_mem t h
  | case3 s ss t hnlt hlt ih =>
    rcases List.mem_cons.1 h with rfl | h
    · exact List.mem_cons_self
    · exact List.mem_cons_of_mem s (ih h)
  | case4 s ss t hnlt hngt => exact h

theorem exists_capacity_enterShape (ss : List Template) (t : Template) :
    ∃ u ∈ enterShape ss t, u.capacity = t.capacity := by
  fun_induction enterShape ss t with
  | case1 t => exact ⟨t, List.mem_singleton_self t, rfl⟩
  | case2 s ss t hlt => exact ⟨t, List.mem_cons_self, rfl⟩
  | case3 s ss t hnlt hlt ih =>
    obtain ⟨u, hu, hsame⟩ := ih
    exact ⟨u, List.mem_cons_of_mem s hu, hsame⟩
  | case4 s ss t hnlt hngt =>
    exact ⟨s, List.mem_cons_self, Template.capacity_eq_of_not_smallerThan hngt hnlt⟩

theorem pairwise_enterShape (h : ss.Pairwise fun a b => a.smallerThan b = true) :
    (enterShape ss t).Pairwise fun a b => a.smallerThan b = true := by
  fun_induction enterShape ss t with
  | case1 t => exact List.pairwise_singleton _ t
  | case2 s ss t hlt =>
    refine List.pairwise_cons.2 ⟨List.forall_mem_cons.2 ⟨hlt, fun u hu => ?_⟩, h⟩
    exact Template.smallerThan_trans hlt (List.rel_of_pairwise_cons h hu)
  | case3 s ss t hnlt hlt ih =>
    obtain ⟨hs, hss⟩ := List.pairwise_cons.1 h
    refine List.pairwise_cons.2 ⟨fun u hu => ?_, ih hss⟩
    rcases mem_enterShape hu with rfl | hu
    · exact hlt
    · exact hs u hu
  | case4 s ss t hnlt hngt => exact h

/-- The shapes of templates that are entered in turn: no template comes from elsewhere, every shape is
there, and each only once. -/
theorem foldl_enterShape (h : ss.Pairwise fun a b => a.smallerThan b = true) :
    let entered := ts.foldl enterShape ss
    (∀ u ∈ entered, u ∈ ss ∨ u ∈ ts) ∧ (∀ u ∈ ss, u ∈ entered) ∧
      (∀ t ∈ ts, ∃ u ∈ entered, u.capacity = t.capacity) ∧
      entered.Pairwise fun a b => a.smallerThan b = true := by
  induction ts generalizing ss with
  | nil => exact ⟨fun u hu => .inl hu, fun u hu => hu, List.forall_mem_nil _, h⟩
  | cons t ts ih =>
    obtain ⟨hfrom, hkept, hshapes, hrising⟩ := ih (pairwise_enterShape (t := t) h)
    refine ⟨fun u hu => ?_, fun u hu => hkept u (mem_enterShape_of_mem hu), ?_, hrising⟩
    · rcases hfrom u hu with hu | hu
      · rcases mem_enterShape hu with rfl | hu
        · exact .inr List.mem_cons_self
        · exact .inl hu
      · exact .inr (List.mem_cons_of_mem t hu)
    · refine List.forall_mem_cons.2 ⟨?_, hshapes⟩
      obtain ⟨u, hu, hsame⟩ := exists_capacity_enterShape ss t
      exact ⟨u, hkept u hu, hsame⟩

end Shapes

def offeredTemplates (cards : List Card) : List Template := cards.flatMap fun c => c.supported.toList

section Cards

variable {cards : List Card} {model : String} {t u : Template}

theorem mem_offered_of_shapes (h : t ∈ shapes cards) : t ∈ offeredTemplates cards :=
  ((foldl_enterShape .nil).1 t h).resolve_left List.not_mem_nil

theorem exists_mem_shapes (h : t ∈ offeredTemplates cards) :
    ∃ u ∈ shapes cards, u.capacity = t.capacity :=
  (foldl_enterShape .nil).2.2.1 t h

theorem pairwise_shapes : (shapes cards).Pairwise fun a b => a.smallerThan b = true :=
  (foldl_enterShape .nil).2.2.2

theorem nodup_map_shapes : ((shapes cards).map Template.capacity).Nodup :=
  List.pairwise_map.2 (pairwise_shapes.imp Template.capacity_ne_of_smallerThan)

theorem eq_of_shapes (ht : t ∈ shapes cards) (hu : u ∈ shapes cards) (hcore : t.aiCore = u.aiCore)
    (hmemory : t.memoryGb = u.memoryGb) : t = u := by
  apply List.inj_on_of_nodup_map nodup_map_shapes ht hu
  rw [Template.capacity, Template.capacity, hcore, hmemory]

theorem modelNames_eq : modelNames cards =
    (Dict.ofList ((cards.map Card.modelName).map fun name => (name, ()))).keys := by
  rw [modelNames, List.map_map]
  rfl

theorem mem_modelNames : model ∈ modelNames cards ↔ ∃ c ∈ cards, c.modelName = model := by
  rw [modelNames_eq, Dict.mem_keys_ofNames, List.mem_map]

theorem nodup_modelNames : (modelNames cards).Nodup := by
  rw [modelNames_eq, Dict.keys]
  exact List.pairwise_map.2 ((Dict.sorted _).imp String.ne_of_lt)

theorem exists_model (h : t ∈ offeredTemplates cards) : ∃ model, model ∈ modelNames cards := by
  obtain ⟨c, hc, -⟩ := List.mem_flatMap.1 h
  exact ⟨c.modelName, mem_modelNames.2 ⟨c, hc, rfl⟩⟩

end Cards

end SliceAgent
