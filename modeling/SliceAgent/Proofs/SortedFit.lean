import Mathlib.Data.List.Nodup
import Mathlib.Data.List.Perm.Basic
import SliceAgent.Proofs.BestFit

/-!
Best fit as a sort and a scan. The templates that satisfy a request are sorted by shape and name, and the
first of those with the least surplus is taken, the surplus being computed in words. No computation leaves
the words, and the scan finds the least template of all (`Catalog.bestFit_unique_least`), in whatever order
the templates come.
-/
namespace SliceAgent

def difference? (a b : UInt32) : Option UInt32 := if b ≤ a then some (a - b) else none

def sum? (a b : UInt64) : Option UInt64 :=
  if a.toNat + b.toNat < UInt64.size then some (a + b) else none

namespace Template

variable {aiCore memoryGb : UInt32} {a b t u : Template} {ts : List Template} {words : UInt64}

def surplusWords? (t : Template) (aiCore memoryGb : UInt32) : Option UInt64 := do
  let cores ← difference? t.aiCore aiCore
  let memory ← difference? t.memoryGb memoryGb
  sum? cores.toUInt64 memory.toUInt64

theorem satisfies_iff : t.satisfies aiCore memoryGb = true ↔ aiCore ≤ t.aiCore ∧ memoryGb ≤ t.memoryGb := by
  simp only [satisfies, Bool.and_eq_true, decide_eq_true_eq]

theorem exists_surplusWords (h : t.satisfies aiCore memoryGb = true) :
    ∃ words, t.surplusWords? aiCore memoryGb = some words ∧ words.toNat = t.surplus aiCore memoryGb := by
  obtain ⟨hcore, hmemory⟩ := satisfies_iff.1 h
  have hcores : (t.aiCore - aiCore).toUInt64.toNat = t.aiCore.toNat - aiCore.toNat := by
    rw [UInt32.toNat_toUInt64, UInt32.toNat_sub_of_le _ _ hcore]
  have hmem : (t.memoryGb - memoryGb).toUInt64.toNat = t.memoryGb.toNat - memoryGb.toNat := by
    rw [UInt32.toNat_toUInt64, UInt32.toNat_sub_of_le _ _ hmemory]
  have hfits : (t.aiCore - aiCore).toUInt64.toNat + (t.memoryGb - memoryGb).toUInt64.toNat <
      UInt64.size := by
    have hc := t.aiCore.toNat_lt
    have hm := t.memoryGb.toNat_lt
    rw [hcores, hmem, UInt64.size]
    omega
  refine ⟨(t.aiCore - aiCore).toUInt64 + (t.memoryGb - memoryGb).toUInt64, ?_, ?_⟩
  · rw [surplusWords?, difference?, difference?, if_pos hcore, if_pos hmemory]
    exact if_pos hfits
  · rw [UInt64.toNat_add, Nat.mod_eq_of_lt hfits, hcores, hmem, surplus]

def shapeRank (t : Template) : ℕ ×ₗ ℕ ×ₗ String := toLex (t.aiCore.toNat, toLex (t.memoryGb.toNat, t.name))

theorem rank_le_iff : a.rank aiCore memoryGb ≤ b.rank aiCore memoryGb ↔
    a.surplus aiCore memoryGb < b.surplus aiCore memoryGb ∨
      a.surplus aiCore memoryGb = b.surplus aiCore memoryGb ∧ a.shapeRank ≤ b.shapeRank :=
  Prod.Lex.toLex_le_toLex

theorem rank_injective (h : a.rank aiCore memoryGb = b.rank aiCore memoryGb) : a = b := by
  obtain ⟨name, core, memory⟩ := a
  obtain ⟨name', core', memory'⟩ := b
  simp only [rank, EmbeddingLike.apply_eq_iff_eq, Prod.mk.injEq, UInt32.toNat_inj] at h
  obtain ⟨_, rfl, rfl, rfl⟩ := h
  rfl

/-- Goes on to the next template; an earlier one of the same surplus stays. -/
def keepNearer? (aiCore memoryGb : UInt32) (best : Option (UInt64 × Template)) (t : Template) :
    Option (Option (UInt64 × Template)) := do
  let words ← t.surplusWords? aiCore memoryGb
  match best with
  | none => some (some (words, t))
  | some (least, u) => if words < least then some (some (words, t)) else some (some (least, u))

/-- The first template with the least surplus in the order of shape and name. The outer result is missing
if a computation leaves its words. -/
def sortedFit? (ts : List Template) (aiCore memoryGb : UInt32) : Option (Option Template) :=
  let candidates := (ts.filter (·.satisfies aiCore memoryGb)).mergeSort fun a b => a.shapeRank ≤ b.shapeRank
  (candidates.foldlM (keepNearer? aiCore memoryGb) none).map fun best => best.map Prod.snd

theorem foldlM_keepNearer (hsat : ∀ t ∈ ts, t.satisfies aiCore memoryGb = true)
    (hsorted : ts.Pairwise fun a b => a.shapeRank ≤ b.shapeRank)
    (hwords : words.toNat = b.surplus aiCore memoryGb) (hb : ∀ t ∈ ts, b.shapeRank ≤ t.shapeRank) :
    ∃ least u, ts.foldlM (keepNearer? aiCore memoryGb) (some (words, b)) = some (some (least, u)) ∧
      (u = b ∨ u ∈ ts) ∧ u.rank aiCore memoryGb ≤ b.rank aiCore memoryGb ∧
      ∀ t ∈ ts, u.rank aiCore memoryGb ≤ t.rank aiCore memoryGb := by
  induction ts generalizing words b with
  | nil => exact ⟨words, b, rfl, .inl rfl, le_refl _, List.forall_mem_nil _⟩
  | cons t ts ih =>
    obtain ⟨ht, hts⟩ := List.forall_mem_cons.1 hsat
    obtain ⟨hafter, hrest⟩ := List.pairwise_cons.1 hsorted
    obtain ⟨hbt, hbts⟩ := List.forall_mem_cons.1 hb
    obtain ⟨next, hnext, hnextwords⟩ := exists_surplusWords ht
    by_cases hless : next < words
    · have hstep : keepNearer? aiCore memoryGb (some (words, b)) t = some (some (next, t)) := by
        simp only [keepNearer?, hnext, Option.bind_eq_bind, Option.bind_some, if_pos hless]
      have hlt : t.surplus aiCore memoryGb < b.surplus aiCore memoryGb := by
        rwa [← hnextwords, ← hwords, ← UInt64.lt_iff_toNat_lt]
      obtain ⟨least, u, hfold, hmem, hut, huts⟩ := ih hts hrest hnextwords hafter
      refine ⟨least, u, ?_, .inr ?_, hut.trans (rank_le_iff.2 (.inl hlt)), List.forall_mem_cons.2 ⟨hut, huts⟩⟩
      · rw [List.foldlM_cons, hstep]
        exact hfold
      · rcases hmem with rfl | hmem
        · exact List.mem_cons_self
        · exact List.mem_cons_of_mem _ hmem
    · have hstep : keepNearer? aiCore memoryGb (some (words, b)) t = some (some (words, b)) := by
        simp only [keepNearer?, hnext, Option.bind_eq_bind, Option.bind_some, if_neg hless]
      have hle : b.surplus aiCore memoryGb ≤ t.surplus aiCore memoryGb := by
        rw [← hnextwords, ← hwords]
        exact Nat.not_lt.1 fun hlt => hless (UInt64.lt_iff_toNat_lt.2 hlt)
      have hbest : b.rank aiCore memoryGb ≤ t.rank aiCore memoryGb :=
        rank_le_iff.2 (hle.lt_or_eq.imp_right fun heq => ⟨heq, hbt⟩)
      obtain ⟨least, u, hfold, hmem, hub, huts⟩ := ih hts hrest hwords hbts
      refine ⟨least, u, ?_, hmem.imp_right (List.mem_cons_of_mem _), hub,
        List.forall_mem_cons.2 ⟨hub.trans hbest, huts⟩⟩
      rw [List.foldlM_cons, hstep]
      exact hfold

theorem sortedFit?_cases (ts : List Template) (aiCore memoryGb : UInt32) :
    (sortedFit? ts aiCore memoryGb = some none ∧ ∀ t ∈ ts, ¬ t.satisfies aiCore memoryGb = true) ∨
    ∃ u ∈ ts, sortedFit? ts aiCore memoryGb = some (some u) ∧ u.satisfies aiCore memoryGb = true ∧
      ∀ t ∈ ts, t.satisfies aiCore memoryGb = true → u.rank aiCore memoryGb ≤ t.rank aiCore memoryGb := by
  let le : Template → Template → Bool := fun a b => a.shapeRank ≤ b.shapeRank
  let candidates := (ts.filter (·.satisfies aiCore memoryGb)).mergeSort le
  have hfit : sortedFit? ts aiCore memoryGb =
      (candidates.foldlM (keepNearer? aiCore memoryGb) none).map fun best => best.map Prod.snd := rfl
  have hmem : ∀ t, t ∈ candidates ↔ t ∈ ts ∧ t.satisfies aiCore memoryGb = true := fun t => by
    rw [List.mem_mergeSort, List.mem_filter]
  have hsorted : candidates.Pairwise fun a b => a.shapeRank ≤ b.shapeRank := by
    refine (List.pairwise_mergeSort ?_ ?_ _).imp of_decide_eq_true
    · intro a b c hab hbc
      exact decide_eq_true ((of_decide_eq_true hab).trans (of_decide_eq_true hbc))
    · intro a b
      rw [Bool.or_eq_true, decide_eq_true_eq, decide_eq_true_eq]
      exact le_total a.shapeRank b.shapeRank
  rw [hfit]
  generalize candidates = candidates at *
  cases candidates with
  | nil => exact .inl ⟨rfl, fun t ht hsat => List.not_mem_nil ((hmem t).2 ⟨ht, hsat⟩)⟩
  | cons first rest =>
    obtain ⟨hafter, hrest⟩ := List.pairwise_cons.1 hsorted
    have hsat : ∀ t ∈ first :: rest, t.satisfies aiCore memoryGb = true := fun t ht => ((hmem t).1 ht).2
    obtain ⟨words, hwords, hvalue⟩ := exists_surplusWords (hsat first List.mem_cons_self)
    obtain ⟨least, u, hfold, hu, hfirst, hleast⟩ :=
      foldlM_keepNearer (List.forall_mem_cons.1 hsat).2 hrest hvalue hafter
    have hucand : u ∈ first :: rest := by
      rcases hu with rfl | hu
      · exact List.mem_cons_self
      · exact List.mem_cons_of_mem _ hu
    refine .inr ⟨u, ((hmem u).1 hucand).1, ?_, hsat u hucand, fun t ht hts => ?_⟩
    · have hstep : keepNearer? aiCore memoryGb none first = some (some (words, first)) := by
        simp only [keepNearer?, hwords, Option.bind_eq_bind, Option.bind_some]
      rw [List.foldlM_cons, hstep, Option.bind_eq_bind, Option.bind_some, hfold]
      rfl
    · rcases List.mem_cons.1 ((hmem t).2 ⟨ht, hts⟩) with rfl | hrestmem
      · exact hfirst
      · exact hleast t hrestmem

end Template

namespace Catalog

variable {c : Catalog} {aiCore memoryGb : UInt32} {t u : Template} {ts us : List Template}

theorem bestFit_eq_none_iff : c.bestFit aiCore memoryGb = none ↔
    ∀ t ∈ c.toList, ¬ t.satisfies aiCore memoryGb = true := by
  rw [← Option.not_isSome_iff_eq_none, isSome_bestFit_iff]
  simp only [not_exists, not_and]

theorem bestFit_eq_some (hu : u ∈ c.toList) (hsat : u.satisfies aiCore memoryGb = true)
    (hleast : ∀ t ∈ c.toList, t.satisfies aiCore memoryGb = true →
      u.rank aiCore memoryGb ≤ t.rank aiCore memoryGb) : c.bestFit aiCore memoryGb = some u := by
  obtain ⟨v, hv⟩ := Option.isSome_iff_exists.1 (isSome_bestFit_iff.2 ⟨u, hu, hsat⟩)
  obtain ⟨hmem, hvsat, hvleast⟩ := bestFit_least hv
  have hrank := le_antisymm (hvleast u hu hsat) (hleast v hmem hvsat)
  rw [hv, Template.rank_injective hrank]

theorem sortedFit_eq_bestFit (hts : ∀ t, t ∈ ts ↔ t ∈ c.toList) :
    Template.sortedFit? ts aiCore memoryGb = some (c.bestFit aiCore memoryGb) := by
  rcases Template.sortedFit?_cases ts aiCore memoryGb with ⟨hnone, hunfit⟩ | ⟨u, hu, hsome, hsat, hleast⟩
  · rw [hnone, bestFit_eq_none_iff.2 fun t ht => hunfit t ((hts t).2 ht)]
  · rw [hsome, bestFit_eq_some ((hts u).1 hu) hsat fun t ht => hleast t ((hts t).2 ht)]

theorem ofList_perm (hperm : ts.Perm us) (hnames : (ts.map (·.name)).Nodup) : ofList ts = ofList us := by
  refine hperm.foldl_eq' (fun t ht u hu c => ?_) empty
  by_cases hname : t.name = u.name
  · rw [List.inj_on_of_nodup_map hnames ht hu hname]
  · exact congrArg Catalog.mk (Dict.insert_insert_comm c.templates hname t u)

/-- Best fit serves a request with the least of all templates that satisfy it, by surplus, cores, memory
and name in turn, and with none only where none satisfies it. Sorting the templates by shape and taking the
first of the least surplus is the same, in whatever order they come, and never leaves the words that the
surplus is computed in. Nor does the order matter in which templates were entered in the catalog. -/
theorem bestFit_unique_least (c : Catalog) (aiCore memoryGb : UInt32) :
    (c.bestFit aiCore memoryGb = none ↔
      ¬ ∃ t ∈ c.toList, aiCore ≤ t.aiCore ∧ memoryGb ≤ t.memoryGb) ∧
    (∀ u, c.bestFit aiCore memoryGb = some u ↔
      u ∈ c.toList ∧ aiCore ≤ u.aiCore ∧ memoryGb ≤ u.memoryGb ∧
      ∀ t ∈ c.toList, aiCore ≤ t.aiCore → memoryGb ≤ t.memoryGb → t ≠ u →
        u.rank aiCore memoryGb < t.rank aiCore memoryGb) ∧
    (∀ ts, (∀ t, t ∈ ts ↔ t ∈ c.toList) →
      Template.sortedFit? ts aiCore memoryGb = some (c.bestFit aiCore memoryGb)) ∧
    (∀ t : Template, aiCore ≤ t.aiCore → memoryGb ≤ t.memoryGb → ∃ words : UInt64,
      t.surplusWords? aiCore memoryGb = some words ∧ words.toNat =
        (t.aiCore.toNat - aiCore.toNat) + (t.memoryGb.toNat - memoryGb.toNat)) ∧
    ∀ ts us : List Template, ts.Perm us → (ts.map (·.name)).Nodup →
      (ofList ts).bestFit aiCore memoryGb = (ofList us).bestFit aiCore memoryGb := by
  refine ⟨?_, fun u => ⟨fun h => ?_, ?_⟩, fun ts hts => sortedFit_eq_bestFit hts,
    fun t hcore hmemory => Template.exists_surplusWords (Template.satisfies_iff.2 ⟨hcore, hmemory⟩),
    fun ts us hperm hnames => by rw [ofList_perm hperm hnames]⟩
  · simp only [bestFit_eq_none_iff, Template.satisfies_iff, not_exists, not_and]
  · obtain ⟨hmem, hsat, hleast⟩ := bestFit_least h
    obtain ⟨hcore, hmemory⟩ := Template.satisfies_iff.1 hsat
    refine ⟨hmem, hcore, hmemory, fun t ht htcore htmemory hne => ?_⟩
    have hle := hleast t ht (Template.satisfies_iff.2 ⟨htcore, htmemory⟩)
    exact lt_of_le_of_ne hle fun heq => hne (Template.rank_injective heq).symm
  · rintro ⟨hmem, hcore, hmemory, hleast⟩
    refine bestFit_eq_some hmem (Template.satisfies_iff.2 ⟨hcore, hmemory⟩) fun t ht hsat => ?_
    obtain ⟨htcore, htmemory⟩ := Template.satisfies_iff.1 hsat
    by_cases hne : t = u
    · exact hne ▸ le_refl _
    · exact (hleast t ht htcore htmemory hne).le

def tiedTemplates : List Template := [⟨"wide", 8, 8⟩, ⟨"tall_b", 4, 12⟩, ⟨"tall_a", 4, 12⟩]

theorem bestFit_unique_least_tied :
    (ofList tiedTemplates).bestFit 4 8 = some ⟨"tall_a", 4, 12⟩ ∧
    (∀ t ∈ (ofList tiedTemplates).toList, 4 ≤ t.aiCore → 8 ≤ t.memoryGb → t ≠ ⟨"tall_a", 4, 12⟩ →
      Template.rank 4 8 ⟨"tall_a", 4, 12⟩ < t.rank 4 8) ∧
    (ofList tiedTemplates).bestFit 4 8 = (ofList tiedTemplates.reverse).bestFit 4 8 := by
  have hbest : (ofList tiedTemplates).bestFit 4 8 = some ⟨"tall_a", 4, 12⟩ := by decide +kernel
  have hnames : (tiedTemplates.map (·.name)).Nodup := by decide
  obtain ⟨_, hpicked, _, _, horder⟩ := bestFit_unique_least (ofList tiedTemplates) 4 8
  exact ⟨hbest, ((hpicked _).1 hbest).2.2.2, horder _ _ (List.reverse_perm _).symm hnames⟩

end Catalog

end SliceAgent
