import SliceAgent.Node.Grant
import SliceAgent.Proofs.FoundCards

/-!
The granting of devices as calls of the engine, which the inventory follows: one for each assigned
device, up to the first that cannot be granted.
-/
namespace SliceAgent

variable {configs : List RankedConfig} {driver : String} {sources : ConfigSources}
  {claim : ResourceClaim}

namespace Granting

def request (g : Granting) (configs : List RankedConfig) (r : Assignment) : EngineCall :=
  .allocate r.device (requestedAmounts configs r.request g.engine.catalog).1
    (requestedAmounts configs r.request g.engine.catalog).2

/-- The engine calls that the granting of devices makes, up to the first that cannot be granted. -/
def calls (configs : List RankedConfig) : List Assignment → Granting → List EngineCall
  | [], _ => []
  | r :: rs, g =>
    g.request configs r ::
      match (g.grant configs r).1 with
      | .error _ => []
      | .ok _ => calls configs rs (g.grant configs r).2

/-- Engine calls lead from one granting to another. -/
structure Leads (g : Granting) (calls : List EngineCall) (g' : Granting) : Prop where
  engine : g'.engine = g.engine.performAll calls
  inventory : g'.inventory = g.inventory.follow g.engine calls

theorem take_cases (g : Granting) (configs : List RankedConfig) (r : Assignment) :
    (g.take configs r = (r.device, g) ∧ ∃ err, g.engine.allocate r.device
        (requestedAmounts configs r.request g.engine.catalog).1
        (requestedAmounts configs r.request g.engine.catalog).2 = .error err) ∨
    ∃ a engine, g.engine.allocate r.device
        (requestedAmounts configs r.request g.engine.catalog).1
        (requestedAmounts configs r.request g.engine.catalog).2 = .ok (a, engine) ∧
      g.take configs r =
        (a.slice.id, ⟨engine, g.inventory.apply a.change, g.carved ++ [a.slice.id]⟩) := by
  unfold take
  cases ha : g.engine.allocate r.device (requestedAmounts configs r.request g.engine.catalog).1
      (requestedAmounts configs r.request g.engine.catalog).2 with
  | error err =>
    refine .inl ⟨?_, err, rfl⟩
    simp only [ha]
  | ok granted =>
    refine .inr ⟨granted.1, granted.2, rfl, ?_⟩
    simp only [ha]

theorem take_leads (configs : List RankedConfig) (g : Granting) (r : Assignment) :
    g.Leads [g.request configs r] (g.take configs r).2 := by
  rcases g.take_cases configs r with ⟨ht, err, ha⟩ | ⟨a, engine, ha, ht⟩
  · have hp : g.engine.perform (g.request configs r) = g.engine := by
      rw [request, Engine.perform, ha]
    have hc : g.engine.changeOf (g.request configs r) = .none := by
      rw [request, Engine.changeOf, ha]
    rw [ht]
    refine ⟨hp.symm, ?_⟩
    rw [Inventory.follow, hc]
    rfl
  · have hp : g.engine.perform (g.request configs r) = engine := by
      rw [request, Engine.perform, ha]
    have hc : g.engine.changeOf (g.request configs r) = a.change := by
      rw [request, Engine.changeOf, ha]
    rw [ht]
    refine ⟨hp.symm, ?_⟩
    rw [Inventory.follow, hc]
    rfl

theorem take_engine (g : Granting) (configs : List RankedConfig) (r : Assignment) :
    (g.take configs r).2.engine = g.engine.perform (g.request configs r) :=
  (take_leads configs g r).engine

theorem grant_snd (configs : List RankedConfig) (g : Granting) (r : Assignment) :
    (g.grant configs r).2 = (g.take configs r).2 := by
  unfold grant
  split
  rename_i heq
  rw [heq]
  split <;> rfl

theorem Leads.append {g g' g'' : Granting} {calls more : List EngineCall} (h : g.Leads calls g')
    (h' : g'.Leads more g'') : g.Leads (calls ++ more) g'' := by
  refine ⟨?_, ?_⟩
  · rw [h'.engine, h.engine, Engine.performAll_append]
  · rw [h'.inventory, h.inventory, h.engine, Inventory.follow_append]

theorem grantAll_cons_cases (configs : List RankedConfig) (r : Assignment) (rs : List Assignment)
    (g : Granting) :
    ((grantAll configs (r :: rs) g).2 = (g.take configs r).2 ∧
      calls configs (r :: rs) g = [g.request configs r]) ∨
    ((grantAll configs (r :: rs) g).2 = (grantAll configs rs (g.take configs r).2).2 ∧
      calls configs (r :: rs) g = g.request configs r :: calls configs rs (g.take configs r).2) := by
  rw [← grant_snd, calls, grantAll]
  cases hg : g.grant configs r with
  | mk result g' =>
    cases result with
    | error err => exact .inl ⟨rfl, rfl⟩
    | ok d =>
      refine .inr ⟨?_, rfl⟩
      simp only
      cases grantAll configs rs g' with
      | mk result g'' => cases result <;> rfl

theorem grantAll_leads (configs : List RankedConfig) (rs : List Assignment) (g : Granting) :
    g.Leads (calls configs rs g) (grantAll configs rs g).2 := by
  induction rs generalizing g with
  | nil => exact ⟨rfl, rfl⟩
  | cons r rs ih =>
    have hfirst := take_leads configs g r
    rcases grantAll_cons_cases configs r rs g with ⟨hall, hcalls⟩ | ⟨hall, hcalls⟩
    · rw [hall, hcalls]
      exact hfirst
    · rw [hall, hcalls]
      exact hfirst.append (ih _)

theorem calls_isUse (rs : List Assignment) (g : Granting) :
    ∀ call ∈ calls configs rs g, call.isUse = true := by
  induction rs generalizing g with
  | nil => exact fun _ h => absurd h List.not_mem_nil
  | cons r rs ih =>
    rw [calls]
    refine List.forall_mem_cons.2 ⟨rfl, ?_⟩
    split
    · exact fun _ h => absurd h List.not_mem_nil
    · exact ih _

theorem grantAll_keeps {p : Granting → Prop} {rs : List Assignment} {g : Granting}
    (htake : ∀ g r, (g.engine.perform (g.request configs r)).CountersFit → p g →
      p (g.take configs r).2)
    (hfit : g.engine.FitsThrough (calls configs rs g)) (h : p g) : p (grantAll configs rs g).2 := by
  induction rs generalizing g with
  | nil => exact h
  | cons r rs ih =>
    have hengine := g.take_engine configs r
    rcases grantAll_cons_cases configs r rs g with ⟨hall, hcalls⟩ | ⟨hall, hcalls⟩
    · rw [hcalls] at hfit
      rw [hall]
      exact htake g r hfit.1 h
    · rw [hcalls] at hfit
      rw [hall]
      exact ih (hengine ▸ hfit.2) (htake g r hfit.1 h)

end Granting

def claimCalls (driver : String) (sources : ConfigSources) (claim : ResourceClaim) (g : Granting) :
    List EngineCall :=
  match claim.allocation with
  | none => []
  | some allocation =>
    match resolveConfigs driver sources allocation.config with
    | .error _ => []
    | .ok configs => Granting.calls configs (allocation.results.filter (·.driver = driver)) g

theorem claimCalls_of_resolved {allocation : DeviceAllocation} (g : Granting)
    (ha : claim.allocation = some allocation)
    (hr : resolveConfigs driver sources allocation.config = .ok configs) :
    claimCalls driver sources claim g =
      Granting.calls configs (allocation.results.filter (·.driver = driver)) g := by
  simp only [claimCalls, ha, hr]

theorem grantClaim_cases (driver : String) (cdiIds : List String) (sources : ConfigSources)
    (claim : ResourceClaim) (g : Granting) :
    ((grantClaim driver cdiIds sources claim g).2 = g ∧ claimCalls driver sources claim g = []) ∨
    ∃ configs rs, (grantClaim driver cdiIds sources claim g).2 = (Granting.grantAll configs rs g).2 ∧
      claimCalls driver sources claim g = Granting.calls configs rs g := by
  unfold claimCalls grantClaim
  cases claim.allocation with
  | none => exact .inl ⟨rfl, rfl⟩
  | some allocation =>
    cases hr : resolveConfigs driver sources allocation.config with
    | error err =>
      simp only [hr]
      exact .inl ⟨trivial, trivial⟩
    | ok configs =>
      refine .inr ⟨configs, allocation.results.filter (·.driver = driver), ?_⟩
      simp only [hr, and_true]
      cases Granting.grantAll configs (allocation.results.filter (·.driver = driver)) g with
      | mk result g' =>
        cases result with
        | error err => rfl
        | ok granted => cases hcheck : checkConfigs granted configs configs <;> simp only [hcheck]

theorem grantClaim_keeps {p : Granting → Prop} {cdiIds : List String} {g : Granting}
    (htake : ∀ configs g r, (g.engine.perform (g.request configs r)).CountersFit → p g →
      p (g.take configs r).2)
    (hfit : g.engine.FitsThrough (claimCalls driver sources claim g)) (h : p g) :
    p (grantClaim driver cdiIds sources claim g).2 := by
  rcases grantClaim_cases driver cdiIds sources claim g with
    ⟨hgrant, _⟩ | ⟨configs, rs, hgrant, hcalls⟩
  · rw [hgrant]
    exact h
  · rw [hcalls] at hfit
    rw [hgrant]
    exact Granting.grantAll_keeps (htake configs) hfit h

theorem grantClaim_leads (driver : String) (cdiIds : List String) (sources : ConfigSources)
    (claim : ResourceClaim) (g : Granting) :
    g.Leads (claimCalls driver sources claim g) (grantClaim driver cdiIds sources claim g).2 := by
  rcases grantClaim_cases driver cdiIds sources claim g with
    ⟨hgrant, hcalls⟩ | ⟨configs, rs, hgrant, hcalls⟩
  · rw [hgrant, hcalls]
    exact ⟨rfl, rfl⟩
  · rw [hgrant, hcalls]
    exact Granting.grantAll_leads configs rs g

theorem claimCalls_isUse (g : Granting) :
    ∀ call ∈ claimCalls driver sources claim g, call.isUse = true := by
  rcases grantClaim_cases driver [] sources claim g with ⟨_, hcalls⟩ | ⟨configs, rs, _, hcalls⟩
  · rw [hcalls]
    exact fun _ h => absurd h List.not_mem_nil
  · rw [hcalls]
    exact Granting.calls_isUse rs g

end SliceAgent
