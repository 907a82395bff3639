import Mathlib.Data.Prod.Lex
import Mathlib.Data.String.Basic
import SliceAgent.Proofs.Dict
import SliceAgent.Template.BestFit

/-!
What a catalog holds and what best fit picks from it: the least template of those that satisfy the request
(`Catalog.bestFit_least`), and so one of the very shape that is asked for, if there is any.
-/
namespace SliceAgent

namespace Template

theorem pick_mem {aiCore memoryGb : UInt32} {best : Option Template} {t u : Template}
    (h : pick aiCore memoryGb best t = some u) : u = t ∨ best = some u := by
  cases best with
  | none => exact .inl (Option.some.inj h).symm
  | some b =>
    rw [pick] at h
    split at h
    · exact .inl (Option.some.inj h).symm
    · exact .inr h

theorem foldl_pick_mem {aiCore memoryGb : UInt32} {ts : List Template} {best : Option Template}
    {u : Template} (h : ts.foldl (pick aiCore memoryGb) best = some u) :
    u ∈ ts ∨ best = some u := by
  induction ts generalizing best with
  | nil => exact .inr h
  | cons t ts ih =>
    rcases ih h with hu | hu
    · exact .inl (List.mem_cons_of_mem _ hu)
    · rcases pick_mem hu with rfl | hb
      · exact .inl List.mem_cons_self
      · exact .inr hb

theorem isSome_foldl_pick {aiCore memoryGb : UInt32} (ts : List Template) (best : Option Template) :
    (ts.foldl (pick aiCore memoryGb) best).isSome = (best.isSome || !ts.isEmpty) := by
  induction ts generalizing best with
  | nil => simp
  | cons t ts ih =>
    have hsome : (pick aiCore memoryGb best t).isSome = true := by
      unfold pick
      split
      · rfl
      · split <;> rfl
    rw [List.foldl_cons, ih, hsome]
    simp

def rank (aiCore memoryGb : UInt32) (t : Template) : ℕ ×ₗ ℕ ×ₗ ℕ ×ₗ String :=
  toLex (t.surplus aiCore memoryGb, toLex (t.aiCore.toNat, toLex (t.memoryGb.toNat, t.name)))

theorem betterFor_iff {aiCore memoryGb : UInt32} {a b : Template} :
    a.betterFor aiCore memoryGb b = true ↔ a.rank aiCore memoryGb < b.rank aiCore memoryGb := by
  simp only [betterFor, rank, Prod.Lex.toLex_lt_toLex, UInt32.toNat_inj, ← UInt32.lt_iff_toNat_lt]
  by_cases hsurplus : a.surplus aiCore memoryGb = b.surplus aiCore memoryGb
  · by_cases hcore : a.aiCore = b.aiCore
    · by_cases hmemory : a.memoryGb = b.memoryGb <;> simp [hsurplus, hcore, hmemory, -String.lt_iff_ltb]
    · simp [hsurplus, hcore]
  · simp [hsurplus]

theorem surplus_le_of_rank_le {aiCore memoryGb : UInt32} {a b : Template}
    (h : a.rank aiCore memoryGb ≤ b.rank aiCore memoryGb) :
    a.surplus aiCore memoryGb ≤ b.surplus aiCore memoryGb := by
  rcases Prod.Lex.toLex_le_toLex.1 h with hlt | ⟨heq, _⟩
  · exact hlt.le
  · exact heq.le

theorem name_le_of_rank_le {aiCore memoryGb : UInt32} {a b : Template}
    (h : a.rank aiCore memoryGb ≤ b.rank aiCore memoryGb) (hcore : a.aiCore = b.aiCore)
    (hmemory : a.memoryGb = b.memoryGb) : a.name ≤ b.name := by
  have hsurplus : a.surplus aiCore memoryGb = b.surplus aiCore memoryGb := by
    rw [surplus, surplus, hcore, hmemory]
  simpa only [rank, Prod.Lex.toLex_le_toLex, hsurplus, hcore, hmemory, lt_irrefl, false_or, true_and]
    using h

theorem pick_rank_le {aiCore memoryGb : UInt32} {best : Option Template} {t u : Template}
    (h : pick aiCore memoryGb best t = some u) : u.rank aiCore memoryGb ≤ t.rank aiCore memoryGb ∧
      ∀ b, best = some b → u.rank aiCore memoryGb ≤ b.rank aiCore memoryGb := by
  cases best with
  | none =>
    cases h
    exact ⟨le_refl _, fun b hb => by cases hb⟩
  | some b =>
    rw [pick] at h
    split at h
    · rename_i hbetter
      cases h
      exact ⟨le_refl _, fun c hc => Option.some.inj hc ▸ (betterFor_iff.1 hbetter).le⟩
    · rename_i hworse
      cases h
      refine ⟨not_lt.1 fun hlt => hworse (betterFor_iff.2 hlt), fun c hc => ?_⟩
      exact (Option.some.inj hc ▸ le_refl _)

theorem foldl_pick_least {aiCore memoryGb : UInt32} {ts : List Template} {best : Option Template}
    {u : Template} (h : ts.foldl (pick aiCore memoryGb) best = some u) :
    (∀ t ∈ ts, u.rank aiCore memoryGb ≤ t.rank aiCore memoryGb) ∧
      ∀ b, best = some b → u.rank aiCore memoryGb ≤ b.rank aiCore memoryGb := by
  induction ts generalizing best with
  | nil =>
    refine ⟨List.forall_mem_nil _, fun b hb => ?_⟩
    rw [hb] at h
    cases h
    exact le_refl _
  | cons t ts ih =>
    obtain ⟨hrest, hpicked⟩ := ih h
    cases hp : pick aiCore memoryGb best t with
    | none =>
      have hsome : (pick aiCore memoryGb best t).isSome = (best.isSome || true) := isSome_foldl_pick [t] best
      rw [hp, Bool.or_true] at hsome
      cases hsome
    | some v =>
      obtain ⟨ht, hbest⟩ := pick_rank_le hp
      have hv := hpicked v hp
      exact ⟨List.forall_mem_cons.2 ⟨hv.trans ht, hrest⟩, fun b hb => hv.trans (hbest b hb)⟩

end Template

namespace Catalog

theorem mem_toList {c : Catalog} {t : Template} :
    t ∈ c.toList ↔ ∃ name, c.templates.find? name = some t := Dict.mem_values

theorem mem_of_mem_filter {c : Catalog} {keep : Template → Bool} {t : Template}
    (h : t ∈ (c.filter keep).toList) : t ∈ c.toList := by
  obtain ⟨name, hn⟩ := mem_toList.1 h
  rw [filter, Dict.find?_filter] at hn
  exact mem_toList.2 ⟨name, (Option.filter_eq_some_iff.1 hn).1⟩

theorem bestFit_mem {c : Catalog} {aiCore memoryGb : UInt32} {t : Template}
    (h : c.bestFit aiCore memoryGb = some t) : t ∈ c.toList := by
  rcases Template.foldl_pick_mem h with ht | ht
  · exact (List.mem_filter.1 ht).1
  · cases ht

theorem isSome_bestFit_iff {c : Catalog} {aiCore memoryGb : UInt32} :
    (c.bestFit aiCore memoryGb).isSome = true ↔
      ∃ t ∈ c.toList, t.satisfies aiCore memoryGb = true := by
  rw [bestFit, Template.isSome_foldl_pick]
  simp

theorem bestFit_least {c : Catalog} {aiCore memoryGb : UInt32} {u : Template}
    (h : c.bestFit aiCore memoryGb = some u) : u ∈ c.toList ∧ u.satisfies aiCore memoryGb = true ∧
      ∀ t ∈ c.toList, t.satisfies aiCore memoryGb = true →
        u.rank aiCore memoryGb ≤ t.rank aiCore memoryGb := by
  rcases Template.foldl_pick_mem h with hu | hu
  · obtain ⟨hmem, hsat⟩ := List.mem_filter.1 hu
    refine ⟨hmem, hsat, fun t ht hts => ?_⟩
    exact (Template.foldl_pick_least h).1 t (List.mem_filter.2 ⟨ht, hts⟩)
  · cases hu

theorem bestFit_of_shape {c : Catalog} {t : Template} (ht : t ∈ c.toList) :
    ∃ u ∈ c.toList, c.bestFit t.aiCore t.memoryGb = some u ∧ u.aiCore = t.aiCore ∧
      u.memoryGb = t.memoryGb ∧
      ∀ v ∈ c.toList, v.aiCore = t.aiCore → v.memoryGb = t.memoryGb → u.name ≤ v.name := by
  have hself : ∀ v : Template, v.aiCore = t.aiCore → v.memoryGb = t.memoryGb →
      v.satisfies t.aiCore t.memoryGb = true ∧ v.surplus t.aiCore t.memoryGb = 0 := by
    intro v hcore hmemory
    simp [Template.satisfies, Template.surplus, hcore, hmemory]
  obtain ⟨u, hu⟩ := Option.isSome_iff_exists.1
    (isSome_bestFit_iff.2 ⟨t, ht, (hself t rfl rfl).1⟩)
  obtain ⟨hmem, hsat, hleast⟩ := bestFit_least hu
  have hzero : u.surplus t.aiCore t.memoryGb = 0 := by
    have hle := Template.surplus_le_of_rank_le (hleast t ht (hself t rfl rfl).1)
    rw [(hself t rfl rfl).2] at hle
    exact Nat.le_zero.1 hle
  obtain ⟨hcore, hmemory⟩ : u.aiCore = t.aiCore ∧ u.memoryGb = t.memoryGb := by
    simp only [Template.satisfies, Bool.and_eq_true, decide_eq_true_eq, UInt32.le_iff_toNat_le] at hsat
    simp only [Template.surplus] at hzero
    refine ⟨UInt32.toNat_inj.1 ?_, UInt32.toNat_inj.1 ?_⟩ <;> omega
  refine ⟨u, hmem, hu, hcore, hmemory, fun v hv hvcore hvmemory => ?_⟩
  exact Template.name_le_of_rank_le (hleast v hv (hself v hvcore hvmemory).1) (hcore.trans hvcore.symm)
    (hmemory.trans hvmemory.symm)

end Catalog

end SliceAgent
