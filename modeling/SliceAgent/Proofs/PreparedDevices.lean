import Mathlib.Data.List.Sort
import SliceAgent.Proofs.AdoptedSlices
import SliceAgent.Proofs.ConfigLaws
import SliceAgent.Proofs.ConfigPrecedence
import SliceAgent.Proofs.PreparedBatches
import SliceAgent.Proofs.ReleasedNames

/-!
What a claim is given when it is prepared: one device for each assignment to the driver, in the order of
the assignments, with the settings of the configuration of the highest precedence
(`NodeSetup.Reaches.prepares_in_order`). It does not matter that the devices are made for one
configuration after another, and put in order when all are made (`makeByConfig_eq`).
-/
namespace SliceAgent

section Order

variable {α κ : Type}

def inOrder (as : List (α × Nat)) : List α := (as.insertionSort (·.2 ≤ ·.2)).map Prod.fst

theorem inOrder_eq_of_perm {as bs : List (α × Nat)} (hperm : as.Perm bs)
    (hplaces : bs.Pairwise (·.2 < ·.2)) : inOrder as = bs.map Prod.fst := by
  have hall : (as.insertionSort (·.2 ≤ ·.2)).Perm bs := (as.perm_insertionSort _).trans hperm
  have hnodup : (bs.map Prod.snd).Nodup := List.pairwise_map.2 (hplaces.imp Nat.ne_of_lt)
  have hsorted : as.insertionSort (·.2 ≤ ·.2) = bs := by
    refine hall.eq_of_pairwise (fun a b ha hb hab hba => ?_)
      (as.pairwise_insertionSort (·.2 ≤ ·.2)) (hplaces.imp Nat.le_of_lt)
    exact List.inj_on_of_nodup_map hnodup (hall.mem_iff.1 ha) hb (Nat.le_antisymm hab hba)
  rw [inOrder, hsorted]

theorem flatMap_filter_perm [DecidableEq κ] (key : α → κ) (as : List α) {keys : List κ}
    (hkeys : keys.Nodup) (has : ∀ a ∈ as, key a ∈ keys) :
    (keys.flatMap fun k => as.filter (key · = k)).Perm as := by
  induction keys generalizing as with
  | nil =>
    rw [List.eq_nil_iff_forall_not_mem.2 fun a ha => List.not_mem_nil (has a ha)]
    exact .nil
  | cons k keys ih =>
    obtain ⟨hk, hkeys⟩ := List.nodup_cons.1 hkeys
    have hothers : ∀ a ∈ as.filter fun a => !decide (key a = k), key a ∈ keys := by
      intro a ha
      obtain ⟨hmem, hne⟩ := List.mem_filter.1 ha
      exact (List.mem_cons.1 (has a hmem)).resolve_left (by simpa using hne)
    have hsame : (keys.flatMap fun l => as.filter (key · = l)) =
        keys.flatMap fun l => (as.filter fun a => !decide (key a = k)).filter (key · = l) := by
      refine List.flatMap_congr fun l hl => ?_
      rw [List.filter_filter]
      refine List.filter_congr fun a _ => ?_
      by_cases ha : key a = l
      · have hne : key a ≠ k := fun h => hk (h ▸ ha ▸ hl)
        simp [ha, ha ▸ hne]
      · simp [ha]
    rw [List.flatMap_cons, hsame]
    exact ((ih _ hkeys hothers).append_left _).trans (List.filter_append_perm _ as)

end Order

section Places

variable {driver : String} {results : List Assignment}

/-- The places of the assignments to a driver among all assignments. -/
def Assignment.places (driver : String) (results : List Assignment) : List Nat :=
  (results.zipIdx.filter (·.1.driver = driver)).map Prod.snd

theorem Assignment.pairwise_places : (places driver results).Pairwise (· < ·) := by
  have hall : (results.zipIdx.map Prod.snd).Pairwise (· < ·) := by
    rw [List.zipIdx_map_snd]
    exact List.pairwise_lt_range'
  exact hall.sublist (List.filter_sublist.map _)

theorem Assignment.length_places :
    (places driver results).length = (results.filter (·.driver = driver)).length := by
  have hown : (results.zipIdx.filter (·.1.driver = driver)).map Prod.fst =
      results.filter (·.driver = driver) := by
    conv_rhs => rw [← List.zipIdx_map_fst 0 results]
    rw [List.filter_map]
    rfl
  rw [← hown, places, List.length_map, List.length_map]

end Places

section Configs

variable {cdiIds : List String} {engine : Engine} {configs cs : List RankedConfig}
  {granted : List Granted} {placed : List (Granted × Nat)} {d : Granted} {c : RankedConfig}

def deviceUnder (cdiIds : List String) (engine : Engine) (c : RankedConfig) (d : Granted) :
    PreparedDevice :=
  ⟨⟨[d.assignment.request], d.assignment.pool, d.deviceId, cdiIds⟩,
    deviceEdits engine d.deviceId c.config.normalize⟩

def grantedUnder (configs : List RankedConfig) (placed : List (Granted × Nat)) (c : RankedConfig) :
    List (Granted × Nat) :=
  placed.filter fun d => (configFor configs d.1).key = c.key

/-- Makes the devices of one configuration after another. A configuration is checked before its devices
are made, and not looked at if it has none. -/
def makeByConfig (cdiIds : List String) (engine : Engine) (configs : List RankedConfig)
    (placed : List (Granted × Nat)) : List RankedConfig → Except ConfigError (List (PreparedDevice × Nat))
  | [] => .ok []
  | c :: cs =>
    let own := grantedUnder configs placed c
    if own.isEmpty then makeByConfig cdiIds engine configs placed cs
    else
      match c.config.normalize.validate with
      | .error e => .error e
      | .ok () =>
        match makeByConfig cdiIds engine configs placed cs with
        | .error e => .error e
        | .ok made => .ok (own.map (fun d => (deviceUnder cdiIds engine c d.1, d.2)) ++ made)

theorem validate_of_checkConfigs (h : checkConfigs granted configs cs = .ok ()) (hd : d ∈ granted)
    (hc : c ∈ cs) (hkey : (configFor configs d).key = c.key) : c.config.normalize.validate = .ok () := by
  induction cs with
  | nil => cases hc
  | cons b cs ih =>
    rw [checkConfigs] at h
    rcases List.mem_cons.1 hc with rfl | hc
    · have hused : (granted.any fun d => (configFor configs d).key == c.key) = true :=
        List.any_eq_true.2 ⟨d, hd, beq_iff_eq.2 hkey⟩
      rw [if_pos hused] at h
      cases hv : c.config.normalize.validate with
      | error e =>
        rw [hv] at h
        cases h
      | ok u => rfl
    · refine ih ?_ hc
      split at h
      · split at h
        · cases h
        · exact h
      · exact h

/-- The devices of each configuration are those that are made without looking at configurations in turn,
as long as a place in the order of precedence belongs to one configuration. -/
theorem makeByConfig_eq (cdiIds : List String) (engine : Engine) (placed : List (Granted × Nat))
    (hplaces : ∀ c ∈ cs, ∀ d, (configFor configs d).key = c.key →
      configFor configs d = c) :
    makeByConfig cdiIds engine configs placed cs =
      match checkConfigs (placed.map Prod.fst) configs cs with
      | .error e => .error e
      | .ok () => .ok (cs.flatMap fun c =>
          (grantedUnder configs placed c).map fun d => (preparedDevice cdiIds configs engine d.1, d.2)) := by
  induction cs with
  | nil => rfl
  | cons c cs ih =>
    obtain ⟨hc, hcs⟩ := List.forall_mem_cons.1 hplaces
    have hmade : (grantedUnder configs placed c).map (fun d => (deviceUnder cdiIds engine c d.1, d.2)) =
        (grantedUnder configs placed c).map fun d =>
          (preparedDevice cdiIds configs engine d.1, d.2) := by
      refine List.map_congr_left fun d hd => ?_
      rw [← hc d.1 (by simpa using (List.mem_filter.1 hd).2)]
      rfl
    have hused : ((placed.map Prod.fst).any fun d => (configFor configs d).key == c.key) = true ↔
        ¬ (grantedUnder configs placed c).isEmpty = true := by
      simp [grantedUnder]
    rw [makeByConfig, checkConfigs, List.flatMap_cons, hmade, ih hcs]
    by_cases hempty : (grantedUnder configs placed c).isEmpty = true
    · rw [if_pos hempty, if_neg (fun h => hused.1 h hempty), List.isEmpty_iff.1 hempty]
      rfl
    · rw [if_neg hempty, if_pos (hused.2 hempty)]
      cases c.config.normalize.validate with
      | error e => rfl
      | ok u => cases checkConfigs (placed.map Prod.fst) configs cs <;> rfl

end Configs

section Prepared

variable {driver : String} {sources : ConfigSources} {entries : List ConfigEntry}
  {configs ofClass ofClaim : List RankedConfig} {cdiIds : List String} {engine : Engine}
  {granted : List Granted} {places : List Nat} {r : Assignment}

theorem InPrecedence.configFor_eq (h : InPrecedence driver sources entries ofClass ofClaim configs)
    (d : Granted) : applicableConfig? configs d.assignment.request = some (configFor configs d) := by
  obtain ⟨c, hc⟩ := h.exists_applicable d.assignment.request
  rw [configFor, hc]
  rfl

theorem InPrecedence.configFor_mem (h : InPrecedence driver sources entries ofClass ofClaim configs)
    (d : Granted) : configFor configs d ∈ configs :=
  (applicableConfig?_eq_some_iff.1 (h.configFor_eq d)).mem

theorem InPrecedence.eq_of_key (h : InPrecedence driver sources entries ofClass ofClaim configs)
    {c d : RankedConfig} (hc : c ∈ configs) (hd : d ∈ configs) (hkey : d.key = c.key) : d = c :=
  Option.some.inj ((h.at_key hd).symm.trans (hkey ▸ h.at_key hc))

theorem InPrecedence.keys_nodup (h : InPrecedence driver sources entries ofClass ofClaim configs) :
    (configs.map RankedConfig.key).Nodup := by
  have hkeys : configs.map RankedConfig.key = List.range configs.length := by
    refine List.ext_getElem (by simp) fun i hi _ => ?_
    rw [List.getElem_map, List.getElem_range]
    exact h.places i _ (List.getElem?_eq_getElem _)
  rw [hkeys]
  exact List.nodup_range

theorem makeByConfig_inOrder (h : InPrecedence driver sources entries ofClass ofClaim configs)
    (hcheck : checkConfigs granted configs configs = .ok ()) (hplaces : places.Pairwise (· < ·))
    (hlength : granted.length = places.length) :
    ∃ made, makeByConfig cdiIds engine configs (granted.zip places) configs = .ok made ∧
      inOrder made = granted.map (preparedDevice cdiIds configs engine) := by
  have hfst : (granted.zip places).map Prod.fst = granted :=
    List.map_fst_zip (Nat.le_of_eq hlength)
  have hsnd : (granted.zip places).map Prod.snd = places :=
    List.map_snd_zip (Nat.le_of_eq hlength.symm)
  have hone : ∀ c ∈ configs, ∀ d, (configFor configs d).key = c.key → configFor configs d = c :=
    fun c hc d hkey => h.eq_of_key hc (h.configFor_mem d) hkey
  have hmade := makeByConfig_eq cdiIds engine (granted.zip places) hone
  rw [hfst, hcheck] at hmade
  refine ⟨_, hmade, ?_⟩
  have hall := flatMap_filter_perm (fun d : Granted × Nat => (configFor configs d.1).key)
    (granted.zip places) h.keys_nodup fun d _ => List.mem_map_of_mem (h.configFor_mem d.1)
  have hperm := hall.map fun d => (preparedDevice cdiIds configs engine d.1, d.2)
  rw [List.flatMap_map, List.map_flatMap] at hperm
  have hincreasing : ((granted.zip places).map fun d =>
      (preparedDevice cdiIds configs engine d.1, d.2)).Pairwise (·.2 < ·.2) := by
    have hzip : ((granted.zip places).map Prod.snd).Pairwise (· < ·) := by
      rw [hsnd]
      exact hplaces
    exact List.pairwise_map.2 (List.pairwise_map.1 hzip)
  have hordered := inOrder_eq_of_perm hperm hincreasing
  rw [List.map_map] at hordered
  refine hordered.trans ?_
  conv_rhs => rw [← hfst, List.map_map]
  rfl

/-- Whether a device is what a claim is given for one of its assignments: it is the one that was assigned,
and its variables tell the strategy and the parameter of the configuration of the highest precedence that
applies to the request, once this is normalized, which is then also consistent. -/
structure PreparedDevice.Serves (cdiIds : List String) (configs : List RankedConfig) (engine : Engine)
    (r : Assignment) (d : PreparedDevice) : Prop where
  device : d.device = ⟨[r.request], r.pool, r.device, cdiIds⟩
  shared : ∃ c sharing value, IsLast (·.appliesTo r.request = true) configs c ∧
    c.config.normalize.validate = .ok () ∧ c.config.normalize.sharing = some sharing ∧
    sharing.parameterValue? = some value ∧
    d.edits = .ofEnv (["ASCEND_VISIBLE_DEVICES=" ++ visibleDevice r.device] ++
      templateSetting engine r.device ++ [strategyVariable r.device ++ "=" ++ sharing.strategy.name,
        parameterVariable r.device sharing.strategy ++ "=" ++ value]) ∧
    GivesStrategyOnce r.device sharing d.edits.env

theorem InPrecedence.serves (h : InPrecedence driver sources entries ofClass ofClaim configs)
    (hcheck : checkConfigs granted configs configs = .ok ()) (hr : ⟨r, r.device⟩ ∈ granted) :
    (preparedDevice cdiIds configs engine ⟨r, r.device⟩).Serves cdiIds configs engine r := by
  have hlast := applicableConfig?_eq_some_iff.1 (h.configFor_eq ⟨r, r.device⟩)
  have hvalid : (configFor configs ⟨r, r.device⟩).config.normalize.validate = .ok () :=
    validate_of_checkConfigs hcheck hr (h.configFor_mem _) rfl
  obtain ⟨sharing, hsharing, hhas⟩ :=
    (configFor configs ⟨r, r.device⟩).config.exists_sharing_normalize
  obtain ⟨value, hvalue, hedits⟩ := deviceEdits_of_has engine r.device hsharing hhas
  exact ⟨rfl, _, sharing, value, hlast, hvalid, hsharing, hvalue, hedits,
    givesStrategyOnce_deviceEdits hsharing hhas⟩

end Prepared

section Claim

variable {s : NodeSetup} {host : Host} {n : Node} {claim : ResourceClaim} {c : Checkpoint}
  {devices : List PreparedDevice}

theorem Node.Run.cdi_eq {allowed : Node → NodeCall → Prop} {n₀ : Node} (h : n₀.Run allowed n) :
    n.cdi = n₀.cdi := by
  induction h with
  | start => rfl
  | disturb files faults _ ih => exact ih
  | call call _ _ _ ih => exact (Node.cdi_perform _ call).trans ih

theorem NodeSetup.Reaches.settings (h : s.Reaches host n) :
    n.cdi = s.cdi ∧ n.claims = s.claims ∧ n.engine.catalog = s.catalog := by
  obtain ⟨_, n₀, hstart, hrun⟩ := h.run
  obtain ⟨h₀, _, _, hcatalog, hclaims⟩ := hstart.holds
  have hn := hrun.holds h₀
  exact ⟨hrun.cdi_eq.trans hstart.host_eq.1, hn.claims.trans hclaims, hn.cards.catalog.trans hcatalog⟩

theorem NodeSetup.Reaches.grants_assigned (h : s.Reaches host n)
    (hread : n.host.readCheckpoint = .ok c) (hnone : c.find? claim.uid = none)
    (hfit : n.Fits (.prepare claim)) (hok : (n.prepare claim).1 = .ok devices) :
    ∃ allocation configs, claim.allocation = some allocation ∧
      resolveConfigs s.cdi.driverName s.claims.sources allocation.config = .ok configs ∧
      let own := allocation.results.filter (·.driver = s.cdi.driverName)
      let granted := own.map fun r => (⟨r, r.device⟩ : Granted)
      Granting.Current ⟨n.engine, n.inventory, []⟩ ∧
      n.engine.FitsThrough (Granting.calls configs own ⟨n.engine, n.inventory, []⟩) ∧
      Granting.grantAll configs own ⟨n.engine, n.inventory, []⟩ = (.ok granted, (n.granting claim).2) ∧
      checkConfigs granted configs configs = .ok () ∧
      (n.prepare claim).2.engine = (n.granting claim).2.engine ∧
      devices = granted.map (preparedDevice
        [s.cdi.qualifiedName CdiRoot.common, s.cdi.qualifiedName claim.uid] configs
        (n.prepare claim).2.engine) := by
  obtain ⟨hcdi, hclaims, _⟩ := h.settings
  obtain ⟨_, hn, _⟩ := h.holds
  have hgranting := Node.fits_granting hfit hread hnone
  obtain ⟨hgranted, hengine, _⟩ := Node.prepared_of_ok hread hnone hok
  have hcurrent : Granting.Current ⟨n.engine, n.inventory, []⟩ := ⟨hn.sound, hn.mirrors⟩
  obtain ⟨allocation, configs, granted, ha, hr, hall, hcheck, rfl⟩ :=
    grantClaim_ok_iff.1 (show n.granting claim = (.ok devices, (n.granting claim).2) from
      Prod.ext hgranted rfl)
  rw [claimCalls_of_resolved _ ha hr] at hgranting
  obtain ⟨_, rfl, _⟩ := Granting.asIs_of_grantAll hcurrent hgranting hall
  rw [hcdi] at hgranting hall hcheck hr
  rw [hclaims] at hr
  refine ⟨allocation, configs, ha, hr, hcurrent, hgranting, hall, hcheck, hengine, ?_⟩
  rw [hcdi, hengine]
  rfl

/-- A claim that is prepared gets one device for each of its assignments to this driver, in their order.
It gets the same devices when they are made for one configuration after another, as long as each is put
in its place afterwards. -/
theorem NodeSetup.Reaches.prepares_in_order (h : s.Reaches host n)
    (hread : n.host.readCheckpoint = .ok c) (hnone : c.find? claim.uid = none)
    (hfit : n.Fits (.prepare claim)) (hok : (n.prepare claim).1 = .ok devices) :
    ∃ allocation configs, claim.allocation = some allocation ∧
      resolveConfigs s.cdi.driverName s.claims.sources allocation.config = .ok configs ∧
      let own := allocation.results.filter (·.driver = s.cdi.driverName)
      let cdiIds := [s.cdi.qualifiedName CdiRoot.common, s.cdi.qualifiedName claim.uid]
      let engine := (n.prepare claim).2.engine
      List.Forall₂ (fun r d => d.Serves cdiIds configs engine r) own devices ∧
      ∃ made, makeByConfig cdiIds engine configs ((own.map fun r => ⟨r, r.device⟩).zip
          (Assignment.places s.cdi.driverName allocation.results)) configs = .ok made ∧
        devices = inOrder made := by
  obtain ⟨allocation, configs, ha, hr, _, _, _, hcheck, _, hdevices⟩ :=
    h.grants_assigned hread hnone hfit hok
  obtain ⟨ofClass, ofClaim, hprecedence⟩ := exists_inPrecedence hr
  refine ⟨allocation, configs, ha, hr, ?_⟩
  intro own cdiIds engine
  rw [hdevices]
  refine ⟨?_, ?_⟩
  · rw [List.forall₂_map_right_iff, List.forall₂_map_right_iff, List.forall₂_same]
    exact fun r hr => hprecedence.serves hcheck (List.mem_map_of_mem hr)
  · have hlength : (own.map fun r => (⟨r, r.device⟩ : Granted)).length =
        (Assignment.places s.cdi.driverName allocation.results).length := by
      rw [List.length_map, Assignment.length_places]
    obtain ⟨made, hmade, hordered⟩ := makeByConfig_inOrder hprecedence hcheck
      Assignment.pairwise_places hlength
    exact ⟨made, hmade, hordered.symm⟩

/-- Three assignments, the second one of another driver; the first is under the configuration of the claim,
which comes after that of the class that the last one is under. -/
def orderedClaim : ResourceClaim :=
  ⟨"c-1", "default", "c-1", some
    ⟨[⟨"shared", "npu.example.com", "node-a", "npu-0-0"⟩, ⟨"gpu", "gpu.example.com", "node-a", "gpu-0"⟩,
        ⟨"npu", "npu.example.com", "node-a", "npu-0-1"⟩],
      [⟨"FromClaim", ["shared"], some ⟨"npu.example.com", (NpuConfig.ofTemplate "vir02").toRaw⟩⟩,
        ⟨"FromClass", [], some ⟨"npu.example.com", (NpuConfig.ofTemplate "vir01").toRaw⟩⟩]⟩⟩

def sampleCounting : Node := { sampleStart with claims := ⟨.classAndClaim, .legacy⟩ }

theorem NodeSetup.Reaches.prepares_in_order_sample : ∃ devices configs engine,
    (sampleCounting.prepare orderedClaim).1 = .ok devices ∧
    resolveConfigs "npu.example.com" .classAndClaim
      ((orderedClaim.allocation.map (·.config)).getD []) = .ok configs ∧
    List.Forall₂ (fun r d => d.Serves ["k8s.npu.example.com/npu=common", "k8s.npu.example.com/npu=c-1"]
        configs engine r)
      [⟨"shared", "npu.example.com", "node-a", "npu-0-0"⟩, ⟨"npu", "npu.example.com", "node-a", "npu-0-1"⟩]
      devices := by
  have hreached : ({ sampleSetup with claims := ⟨.classAndClaim, .legacy⟩ } : NodeSetup).Reaches
      sampleHost sampleCounting := .start (sampleStart_starts.in_settings ⟨.classAndClaim, .legacy⟩) .start
  have hread : sampleCounting.host.readCheckpoint = .ok .new := sampleStart_read
  have hgranted : (sampleCounting.granting orderedClaim).1 =
      .ok (((sampleCounting.granting orderedClaim).1.toOption).getD []) :=
    ok_of_isOk (by decide +kernel) []
  have hspec := Node.writeClaimSpec_ok_of_prepare sampleStart_read rfl
    (congrArg Prod.fst sampleStart_prepare) (((sampleCounting.granting orderedClaim).1.toOption).getD [])
  have hok := congrArg Prod.fst (Node.prepare_ok hread rfl hgranted hspec rfl)
  have hfit : sampleCounting.Fits (.prepare orderedClaim) :=
    Node.fits_prepare hread rfl hok (by decide +kernel)
  obtain ⟨allocation, configs, ha, hr, hserves, _⟩ := hreached.prepares_in_order hread rfl hfit hok
  cases ha
  exact ⟨_, configs, _, hok, hr, hserves⟩

end Claim

end SliceAgent
