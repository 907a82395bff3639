import Mathlib.Data.List.Induction
import SliceAgent.Proofs.EngineRun

/-!
What cards offer. Where the policy names no text, a card offers what is eligible for the slices that are
allocated on it, whatever happened before. Where it names a text, an allocation leaves the offer as it
is: the card offers what was eligible when it was entered or when a slice of it was last taken back.
-/
namespace SliceAgent

inductive EngineRequest where
  | register (deviceId : String) (index : UInt32) (model : String) (capacity : Capacity)
  | allocate (id : String) (aiCore memoryGb : UInt32)
  | release (id : String)

def EngineCall.request : EngineCall → EngineRequest
  | .register index model capacity => .register (SliceId.wholeCard index) index model capacity
  | .allocate id aiCore memoryGb => .allocate id aiCore memoryGb
  | .release id => .release id

theorem Eligibility.eligible_congr {policy : Eligibility} {catalog : Catalog} {c d : Card}
    (ha : c.allocated = d.allocated) (hc : c.capacity = d.capacity) :
    policy.eligible catalog c = policy.eligible catalog d := by
  unfold eligible Card.isWhole Card.remaining
  rw [ha, hc]

namespace Card

variable {policy : Eligibility} {catalog : Catalog} {c c' : Card}

/-- A card after an allocation: one more slice, and a new offer only where the policy looks at what is
left. -/
structure GrownFrom (policy : Eligibility) (catalog : Catalog) (c c' : Card) : Prop where
  allocated : ∃ s, c'.allocated = c.allocated ++ [s]
  capacity : c'.capacity = c.capacity
  supported : c'.supported = if policy = .capacity then policy.eligible catalog c' else c.supported

theorem grownFrom_refreshAllocated {moved : Card} {s : Slice}
    (ha : moved.allocated = c.allocated ++ [s]) (hc : moved.capacity = c.capacity)
    (hs : moved.supported = c.supported) :
    c.GrownFrom policy catalog (moved.refreshAllocated policy catalog) := by
  refine ⟨⟨s, refreshAllocated_allocated.trans ha⟩, ?_, ?_⟩
  · exact (congrArg (·.2.2.2) refreshAllocated_identity).trans hc
  · by_cases hp : policy = .capacity
    · rw [refreshAllocated, if_pos hp, if_pos hp]
      exact Eligibility.eligible_congr rfl rfl
    · rw [refreshAllocated, if_neg hp, if_neg hp, hs]

theorem grownFrom_of_allocate {id : String} {aiCore memoryGb : UInt32} {g : Allocation}
    (h : c.allocate policy catalog id aiCore memoryGb = .ok (g, c')) :
    c.GrownFrom policy catalog c' := by
  unfold allocate at h
  split at h
  · unfold takeWhole at h
    split at h
    · cases h
    · split at h
      · cases h
      · cases h
        exact grownFrom_refreshAllocated rfl rfl rfl
  · split at h
    · cases h
    · unfold carve at h
      split at h
      · cases h
      · split at h
        · cases h
        · cases h
          exact grownFrom_refreshAllocated rfl rfl rfl

theorem supported_release (place : Nat) : (c.release policy catalog place).2.supported =
    policy.eligible catalog (c.release policy catalog place).2 := by
  have hrefresh : ∀ d : Card, (d.refresh policy catalog).supported =
      policy.eligible catalog (d.refresh policy catalog) := fun _ => Eligibility.eligible_congr rfl rfl
  unfold release
  dsimp only
  split
  · exact hrefresh _
  · exact hrefresh _

end Card

namespace Engine

variable {e : Engine} {key : String} {c c' : Card} {request : EngineRequest}

def serve (e : Engine) : EngineRequest → Engine
  | .register deviceId index model capacity => e.register deviceId index model capacity
  | .allocate id aiCore memoryGb =>
    match e.allocate id aiCore memoryGb with
    | .ok (_, e') => e'
    | .error _ => e
  | .release id =>
    match e.release id with
    | .ok (_, e') => e'
    | .error _ => e

def serveAll (e : Engine) (requests : List EngineRequest) : Engine := requests.foldl serve e

theorem perform_eq_serve (e : Engine) (call : EngineCall) : e.perform call = e.serve call.request := by
  cases call <;> rfl

theorem serveAll_append (requests more : List EngineRequest) :
    e.serveAll (requests ++ more) = (e.serveAll requests).serveAll more := List.foldl_append

theorem serve_settings (e : Engine) (request : EngineRequest) :
    (e.serve request).catalog = e.catalog ∧ (e.serve request).eligibility = e.eligibility := by
  cases request with
  | register deviceId index model capacity =>
    rw [serve, Engine.register]
    split <;> exact ⟨rfl, rfl⟩
  | allocate id aiCore memoryGb =>
    rw [serve]
    cases ha : e.allocate id aiCore memoryGb with
    | error err => exact ⟨rfl, rfl⟩
    | ok granted =>
      obtain ⟨g, e'⟩ := granted
      obtain ⟨_, _, _, _, _, _, rfl⟩ := allocate_ok ha
      exact ⟨rfl, rfl⟩
  | release id =>
    rw [serve]
    cases hr : e.release id with
    | error err => exact ⟨rfl, rfl⟩
    | ok released =>
      obtain ⟨change, e'⟩ := released
      obtain ⟨_, _, _, _, _, _, _, _, rfl⟩ := release_ok hr
      exact ⟨rfl, rfl⟩

theorem serveAll_settings (e : Engine) (requests : List EngineRequest) :
    (e.serveAll requests).catalog = e.catalog ∧
      (e.serveAll requests).eligibility = e.eligibility := by
  induction requests generalizing e with
  | nil => exact ⟨rfl, rfl⟩
  | cons request requests ih =>
    obtain ⟨hcat, hel⟩ := ih (e.serve request)
    exact ⟨hcat.trans (e.serve_settings request).1, hel.trans (e.serve_settings request).2⟩

theorem perform_eligibility (e : Engine) (call : EngineCall) :
    (e.perform call).eligibility = e.eligibility := by
  rw [perform_eq_serve]
  exact (e.serve_settings call.request).2

theorem performAll_eligibility (e : Engine) (calls : List EngineCall) :
    (e.performAll calls).eligibility = e.eligibility := by
  induction calls generalizing e with
  | nil => rfl
  | cons call calls ih => exact (ih (e.perform call)).trans (e.perform_eligibility call)

def Settles (e : Engine) (key : String) : EngineRequest → Prop
  | .register deviceId _ _ _ => deviceId = key ∧ e.device? key = none
  | .allocate _ _ _ => False
  | .release id => ∃ c place, e.holder? id = some (key, c, place)

def NeverSettles (key : String) : Engine → List EngineRequest → Prop
  | _, [] => True
  | e, request :: requests =>
    ¬ e.Settles key request ∧ NeverSettles key (e.serve request) requests

theorem neverSettles_concat {requests : List EngineRequest} :
    e.NeverSettles key (requests ++ [request]) ↔
      e.NeverSettles key requests ∧ ¬ (e.serveAll requests).Settles key request := by
  induction requests generalizing e with
  | nil => simp [NeverSettles, serveAll]
  | cons first requests ih =>
    rw [List.cons_append, NeverSettles, ih, NeverSettles, and_assoc]
    rfl

theorem serve_cases (h : (e.serve request).device? key = some c') :
    (e.Settles key request ∧ c'.supported = e.eligibility.eligible e.catalog c') ∨
    (¬ e.Settles key request ∧ ∃ c, e.device? key = some c ∧
      (c' = c ∨ c.GrownFrom e.eligibility e.catalog c')) := by
  cases request with
  | register deviceId index model capacity =>
    rw [serve, Engine.register] at h
    split at h
    · rename_i hin
      refine .inr ⟨?_, c', h, .inl rfl⟩
      rintro ⟨rfl, hnone⟩
      rw [device?, ← Option.not_isSome_iff_eq_none] at hnone
      exact hnone hin
    · rename_i hout
      rw [device?, Dict.find?_insert] at h
      split at h
      · rename_i hk
        cases h
        refine .inl ⟨⟨hk.symm, ?_⟩, (Eligibility.eligible_of_whole rfl).symm⟩
        rw [hk, device?, ← Option.not_isSome_iff_eq_none]
        exact hout
      · rename_i hk
        exact .inr ⟨fun hs => hk hs.1.symm, c', h, .inl rfl⟩
  | allocate id aiCore memoryGb =>
    refine .inr ⟨fun hs => hs, ?_⟩
    rw [serve] at h
    cases ha : e.allocate id aiCore memoryGb with
    | error err =>
      rw [ha] at h
      exact ⟨c', h, .inl rfl⟩
    | ok granted =>
      obtain ⟨g, e'⟩ := granted
      obtain ⟨k, c, d, hc, _, hcard, rfl⟩ := allocate_ok ha
      simp only [ha, device?, Dict.find?_insert] at h
      split at h
      · rename_i hk
        cases h
        exact ⟨c, hk ▸ hc, .inr (Card.grownFrom_of_allocate hcard)⟩
      · exact ⟨c', h, .inl rfl⟩
  | release id =>
    rw [serve, Engine.release] at h
    cases hh : e.holder? id with
    | none =>
      rw [hh] at h
      refine .inr ⟨?_, c', h, .inl rfl⟩
      rintro ⟨_, _, hs⟩
      cases hh.symm.trans hs
    | some found =>
      obtain ⟨k, c, place⟩ := found
      simp only [hh, device?, Dict.find?_insert] at h
      split at h
      · rename_i hk
        cases h
        exact .inl ⟨⟨c, place, hk ▸ hh⟩, Card.supported_release place⟩
      · rename_i hk
        refine .inr ⟨?_, c', h, .inl rfl⟩
        rintro ⟨_, _, hs⟩
        cases hh.symm.trans hs
        exact hk rfl

def OffersEligible (e : Engine) : Prop :=
  ∀ key c, e.device? key = some c → c.supported = e.eligibility.eligible e.catalog c

theorem offersEligible_new (catalog : Catalog) (policy : Eligibility) :
    (Engine.new catalog policy).OffersEligible := by
  intro key c hc
  cases hc

theorem OffersEligible.serve (h : e.OffersEligible)
    (hp : e.eligibility = .all ∨ e.eligibility = .capacity) (request : EngineRequest) :
    (e.serve request).OffersEligible := by
  intro key c' hc'
  rw [(e.serve_settings request).1, (e.serve_settings request).2]
  rcases serve_cases hc' with ⟨_, hs⟩ | ⟨_, c, hc, rfl | hg⟩
  · exact hs
  · exact h key c' hc
  · rw [hg.supported]
    rcases hp with hp | hp
    · rw [if_neg (by rw [hp]; decide), h key c hc, hp]
      simp only [Eligibility.eligible, ite_self]
    · rw [if_pos hp]

theorem OffersEligible.serveAll (h : e.OffersEligible)
    (hp : e.eligibility = .all ∨ e.eligibility = .capacity) (requests : List EngineRequest) :
    (e.serveAll requests).OffersEligible := by
  induction requests generalizing e with
  | nil => exact h
  | cons request requests ih =>
    exact ih (h.serve hp request) (by rwa [(e.serve_settings request).2])

theorem exists_last_settled {catalog : Catalog} {text : String} {requests : List EngineRequest}
    (hc : ((Engine.new catalog (.leading text)).serveAll requests).device? key = some c) :
    ∃ before request after d, requests = before ++ request :: after ∧
      let e := (Engine.new catalog (.leading text)).serveAll before
      e.Settles key request ∧ (e.serve request).NeverSettles key after ∧
      (e.serve request).device? key = some d ∧ d.allocated <+: c.allocated ∧
      c.supported = Eligibility.eligible (.leading text) catalog d := by
  induction requests using List.reverseRecOn generalizing c with
  | nil => cases hc
  | append_singleton requests request ih =>
    rw [serveAll_append] at hc
    have hset := (Engine.new catalog (.leading text)).serveAll_settings requests
    rcases serve_cases hc with ⟨hs, hoff⟩ | ⟨hns, c₀, hc₀, hkept⟩
    · rw [hset.1, hset.2] at hoff
      exact ⟨requests, request, [], c, rfl, hs, trivial, hc, List.prefix_rfl, hoff⟩
    · obtain ⟨before, settling, after, d, rfl, hs, hnever, hd, hgrown, hoff⟩ := ih hc₀
      refine ⟨before, settling, after ++ [request], d, by simp, hs, ?_, hd, ?_, ?_⟩
      · refine neverSettles_concat.2 ⟨hnever, ?_⟩
        rwa [serveAll_append] at hns
      · rcases hkept with rfl | hg
        · exact hgrown
        · obtain ⟨s, hadd⟩ := hg.allocated
          exact hadd ▸ hgrown.trans (List.prefix_append _ _)
      · rcases hkept with rfl | hg
        · exact hoff
        · rw [hg.supported, if_neg (by rw [hset.2]; exact fun h => by cases h), hoff]

/-- Under the policies that name no text every card offers what is eligible for it, so that the same
slices on cards of one size mean the same offer. Under a text the offer is what was eligible when the
card was entered or a slice of it was last taken back. -/
theorem offered_of_serveAll {catalog : Catalog} {policy : Eligibility} {requests : List EngineRequest}
    (hc : ((Engine.new catalog policy).serveAll requests).device? key = some c) :
    (policy = .all ∨ policy = .capacity →
      c.supported = policy.eligible catalog c ∧
      ∀ others k d, ((Engine.new catalog policy).serveAll others).device? k = some d →
        d.allocated = c.allocated → d.capacity = c.capacity → d.supported = c.supported) ∧
    ∀ text, policy = .leading text →
      ∃ before request after d, requests = before ++ request :: after ∧
        let e := (Engine.new catalog policy).serveAll before
        e.Settles key request ∧ (e.serve request).NeverSettles key after ∧
        (e.serve request).device? key = some d ∧ d.allocated <+: c.allocated ∧
        c.supported = policy.eligible catalog d := by
  refine ⟨fun hp => ?_, ?_⟩
  · have huptodate : ∀ (rs : List EngineRequest) (k : String) (d : Card),
        ((Engine.new catalog policy).serveAll rs).device? k = some d →
          d.supported = policy.eligible catalog d := by
      intro rs k d hd
      have h := (offersEligible_new catalog policy).serveAll hp rs k d hd
      rwa [(serveAll_settings _ rs).1, (serveAll_settings _ rs).2] at h
    refine ⟨huptodate requests key c hc, fun others k d hd ha hcap => ?_⟩
    rw [huptodate requests key c hc, huptodate others k d hd]
    exact Eligibility.eligible_congr ha hcap
  · rintro text rfl
    exact exists_last_settled hc

def sampleRequests : List EngineRequest :=
  [.register "npu-0-0" 0 "Ascend910B" ⟨24, 64⟩, .allocate "npu-0-0" 8 12, .allocate "npu-0-1" 4 8,
    .release "npu-0-1", .allocate "npu-0-3" 4 8]

theorem offered_sample : ∃ c,
    ((Engine.new .standard .standard).serveAll sampleRequests).device? "npu-0-0" = some c ∧
    c.supported.toList = [⟨"vir01", 4, 8⟩] ∧
    ∃ before request after d, sampleRequests = before ++ request :: after ∧
      let e := (Engine.new .standard .standard).serveAll before
      e.Settles "npu-0-0" request ∧ (e.serve request).NeverSettles "npu-0-0" after ∧
      (e.serve request).device? "npu-0-0" = some d ∧ d.allocated <+: c.allocated ∧
      c.supported = Eligibility.standard.eligible .standard d := by
  obtain ⟨c, hc⟩ : ∃ c, ((Engine.new .standard .standard).serveAll sampleRequests).device? "npu-0-0" =
      some c := Option.isSome_iff_exists.1 (by decide +kernel)
  have hoff : (((Engine.new .standard .standard).serveAll sampleRequests).device? "npu-0-0").map
      (·.supported.toList) = some [⟨"vir01", 4, 8⟩] := by decide +kernel
  rw [hc] at hoff
  exact ⟨c, hc, Option.some.inj hoff, (offered_of_serveAll hc).2 "vir01" rfl⟩

/-- Under a text, the offer of a card falls behind with the first allocation. -/
theorem offered_behind : ¬ ∀ catalog policy requests key c,
    ((Engine.new catalog policy).serveAll requests).device? key = some c →
      c.supported = policy.eligible catalog c := by
  intro h
  have hall := h .standard (.leading "vir04") (sampleRequests.take 2) "npu-0-0"
  have hbehind : (((Engine.new .standard (.leading "vir04")).serveAll (sampleRequests.take 2)).device?
      "npu-0-0").any (fun c => c.supported ≠ (Eligibility.leading "vir04").eligible .standard c) =
        true := by
    decide +kernel
  obtain ⟨c, hc, hne⟩ := (Option.any_eq_true _ _).1 hbehind
  exact of_decide_eq_true hne (hall c hc)

end Engine

end SliceAgent
