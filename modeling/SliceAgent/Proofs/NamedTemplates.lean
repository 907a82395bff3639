import SliceAgent.Proofs.BestFit
import SliceAgent.Proofs.PreparedDevices
import SliceAgent.Template.Table

/-!
Which template a slice is carved with when a configuration names one. The engine is only told what
amounts the named template has. It carves with the first by name of the templates of this shape, and
grants the whole card where the named template has no size at all (`NodeSetup.PreparesNamed.carves`). So
the template is another one than the one that was named as soon as two of them have one shape
(`not_carves_named`).
-/
namespace SliceAgent

section Table

variable {ts : List Template} {t : Template}

theorem Catalog.mem_ofList (h : t ∈ (Catalog.ofList ts).toList) : t ∈ ts := by
  have hfold : ∀ (ts : List Template) (c : Catalog), t ∈ (ts.foldl insert c).toList →
      t ∈ ts ∨ t ∈ c.toList := by
    intro ts
    induction ts with
    | nil => exact fun c hc => .inr hc
    | cons u ts ih =>
      intro c hc
      rcases ih _ hc with hts | hinsert
      · exact .inl (List.mem_cons_of_mem _ hts)
      · obtain ⟨name, hname⟩ := mem_toList.1 hinsert
        rw [insert, Dict.find?_insert] at hname
        split at hname
        · cases hname
          exact .inl List.mem_cons_self
        · exact .inr (mem_toList.2 ⟨name, hname⟩)
  rcases hfold ts empty h with hts | hnone
  · exact hts
  · cases hnone

theorem TemplateTable.name_ne_empty {text : String} {c : Catalog} (h : parse? text = some c)
    (ht : t ∈ c.toList) : t.name ≠ "" := by
  have hrow : ∀ aiCore memory line, template? aiCore memory line = some t → t.name ≠ "" := by
    intro aiCore memory line hline
    unfold template? at hline
    split at hline
    · cases hline
    · rename_i name row _
      split at hline
      · cases hline
      · rename_i hprefix
        cases hline
        cases name with
        | nil => simp at hprefix
        | cons letter rest =>
          intro hempty
          have hletters := congrArg String.toList hempty
          rw [String.toList_ofList] at hletters
          cases hletters
  simp only [parse?] at h
  split at h
  · cases h
  · cases h
    obtain ⟨line, _, hline⟩ := List.mem_filterMap.1 (Catalog.mem_ofList ht)
    exact hrow _ _ line hline

end Table

namespace Card

variable {policy : Eligibility} {catalog : Catalog} {c c' : Card} {id : String}
  {aiCore memoryGb : UInt32} {t : Template} {g : Allocation}

theorem takeWhole_template (h : c.takeWhole policy catalog = .ok (g, c')) : g.template = none := by
  unfold takeWhole at h
  split at h
  · cases h
  · split at h
    · cases h
    · cases h
      rfl

theorem carve_templateName (h : c.carve policy catalog id t = .ok (g, c')) :
    g.slice.templateName = t.name := by
  unfold carve at h
  split at h
  · cases h
  · split at h
    · cases h
    · cases h
      rfl

/-- What a slice is kept under when certain amounts are allocated: the name of the template that serves
them best, or no name for the whole card. -/
def grantName? (c : Card) (aiCore memoryGb : UInt32) : Option String :=
  if aiCore = 0 ∧ memoryGb = 0 then some "" else (c.supported.bestFit aiCore memoryGb).map (·.name)

theorem Sound.allocate_named (h : c.Sound catalog)
    (ha : c.allocate policy catalog id aiCore memoryGb = .ok (g, c')) :
    c.grantName? aiCore memoryGb = some g.slice.templateName := by
  have hcases := h.allocate_cases ha
  unfold allocate at ha
  split at ha
  · rename_i hzero
    rw [grantName?, if_pos hzero]
    rcases hcases with ⟨_, rfl, _⟩ | ⟨_, _, _, _, _, hg⟩
    · rfl
    · rw [hg] at ha
      cases takeWhole_template ha
  · rename_i hsize
    rw [grantName?, if_neg hsize]
    split at ha
    · cases ha
    · rename_i t ht
      rw [ht, carve_templateName ha]
      rfl

end Card

namespace Engine

variable {e e' : Engine} {key id other name : String} {c : Card} {aiCore memoryGb : UInt32}
  {g : Allocation} {s : Slice}

theorem Sound.templateOf_of_mem (h : e.Sound) (hc : e.cards.find? key = some c) (hs : s ∈ c.allocated) :
    e.templateOf s.id = .ok s.templateName := by
  rw [templateOf, h.find?_allocatedSlices.2 ⟨key, c, hc, hs, rfl⟩]

theorem Sound.templateOf_allocate (h : e.Sound) (he' : e'.Sound)
    (ha : e.allocate other aiCore memoryGb = .ok (g, e')) (hid : e.templateOf id = .ok name) :
    e'.templateOf id = .ok name := by
  rw [templateOf] at hid
  cases hfind : e.allocatedSlices.find? (·.id == id) with
  | none =>
    rw [hfind] at hid
    cases hid
  | some s =>
    rw [hfind] at hid
    cases hid
    obtain ⟨k, d, hd, hs, rfl⟩ := h.find?_allocatedSlices.1 hfind
    obtain ⟨key, c, c', hc, _, hcard, rfl⟩ := allocate_ok ha
    by_cases hk : k = key
    · obtain rfl := hk
      cases hd.symm.trans hc
      refine he'.templateOf_of_mem ((Dict.find?_insert ..).trans (if_pos rfl)) ?_
      rw [(h k d hd).2.allocate_allocated hcard]
      exact List.mem_append_left _ hs
    · exact he'.templateOf_of_mem ((Dict.find?_insert ..).trans ((if_neg hk).trans hd)) hs

theorem Sound.templateOf_allocated (h : e.Sound) (he' : e'.Sound) (hl : e.locate? id = some (key, c))
    (ha : e.allocate id aiCore memoryGb = .ok (g, e')) : SliceId.isSliceId id = true ∧
      ∃ name, c.grantName? aiCore memoryGb = some name ∧ e'.templateOf id = .ok name := by
  have hid := h.slice_id_of_allocate ha
  have hcs := (h key c (locate?_some hl).1).2
  unfold Engine.allocate at ha
  rw [hl] at ha
  simp only at ha
  cases hcard : c.allocate e.eligibility e.catalog id aiCore memoryGb with
  | error err =>
    rw [hcard] at ha
    cases ha
  | ok granted =>
    obtain ⟨a, c'⟩ := granted
    rw [hcard] at ha
    cases ha
    have hmem : g.slice ∈ c'.allocated := by
      rw [hcs.allocate_allocated hcard]
      exact List.mem_append_right _ List.mem_cons_self
    have htemplate := he'.templateOf_of_mem ((Dict.find?_insert ..).trans (if_pos rfl)) hmem
    refine ⟨?_, _, hcs.allocate_named hcard, hid ▸ htemplate⟩
    obtain ⟨counter, hcounter⟩ := hcs.exists_counter (hcs.allocate_allocatedIds hcard).2.1
    rw [← hid, hcounter, SliceId.isSliceId, SliceId.parse?_text]
    rfl

end Engine

namespace Granting

variable {g g' : Granting} {configs : List RankedConfig} {r : Assignment} {d : Granted}
  {rs before after : List Assignment} {ds : List Granted} {id name : String}

theorem grantAll_cons_snd (h : g.grant configs r = (.ok d, g')) :
    (grantAll configs (r :: rs) g).2 = (grantAll configs rs g').2 := by
  rw [grantAll, h]
  simp only
  cases grantAll configs rs g' with
  | mk result left => cases result <;> rfl

theorem Current.grantAll_append (hg : g.Current)
    (hfit : g.engine.FitsThrough (calls configs (before ++ after) g))
    (h : grantAll configs (before ++ after) g = (.ok ds, g')) :
    (grantAll configs before g).2.Current ∧ (grantAll configs before g).2.engine.catalog = g.engine.catalog ∧
      (grantAll configs before g).2.engine.FitsThrough (calls configs after (grantAll configs before g).2) ∧
      ∃ ds', grantAll configs after (grantAll configs before g).2 = (.ok ds', g') := by
  induction before generalizing g ds with
  | nil => exact ⟨hg, rfl, hfit, ds, h⟩
  | cons r before ih =>
    obtain ⟨ds', _, hgrant, _, hnext, hfits, hrest⟩ := hg.grantAll_cons hfit h
    obtain ⟨hcurrent, hcatalog, hlater, hall⟩ := ih hnext hfits hrest
    rw [grantAll_cons_snd hgrant]
    refine ⟨hcurrent, hcatalog.trans ?_, hlater, hall⟩
    rw [take_engine]
    exact g.engine.perform_catalog _

theorem Current.templateOf_grantAll (hg : g.Current) (hfit : g.engine.FitsThrough (calls configs rs g))
    (h : grantAll configs rs g = (.ok ds, g')) (hid : g.engine.templateOf id = .ok name) :
    g'.engine.templateOf id = .ok name := by
  induction rs generalizing g ds with
  | nil =>
    cases h
    exact hid
  | cons r rs ih =>
    obtain ⟨ds', _, _, _, hnext, hfits, hrest⟩ := hg.grantAll_cons hfit h
    refine ih hnext hfits hrest ?_
    rcases g.take_cases configs r with ⟨ht, _⟩ | ⟨a, engine, ha, ht⟩
    · rw [ht]
      exact hid
    · rw [ht] at hnext ⊢
      exact hg.sound.templateOf_allocate hnext.sound ha hid

theorem Current.templateOf_take {t : Template} {key : String} {card : Card} (hg : g.Current)
    (hnext : (g.take configs r).2.Current)
    (ht : requestedTemplate? configs r.request g.engine.catalog = some t)
    (hl : g.engine.locate? r.device = some (key, card))
    (ha : ∃ a e, g.engine.allocate r.device t.aiCore t.memoryGb = .ok (a, e)) :
    SliceId.isSliceId r.device = true ∧ ∃ name, card.grantName? t.aiCore t.memoryGb = some name ∧
      (g.take configs r).2.engine.templateOf r.device = .ok name := by
  obtain ⟨a, e, ha⟩ := ha
  have hamounts : requestedAmounts configs r.request g.engine.catalog = (t.aiCore, t.memoryGb) := by
    rw [requestedAmounts, ht]
  rcases g.take_cases configs r with ⟨_, err, herr⟩ | ⟨a', e', ha', htake⟩
  · rw [hamounts] at herr
    cases ha.symm.trans herr
  · rw [hamounts] at ha'
    rw [htake] at hnext ⊢
    exact hg.sound.templateOf_allocated hnext.sound hl ha'

end Granting

section Named

variable {s : NodeSetup} {host : Host} {n : Node} {claim : ResourceClaim} {devices : List PreparedDevice}
  {configs : List RankedConfig} {before : List Assignment} {r : Assignment} {t : Template} {card : Card}

def Node.engineAfter (n : Node) (configs : List RankedConfig) (before : List Assignment) : Engine :=
  (Granting.grantAll configs before ⟨n.engine, n.inventory, []⟩).2.engine

/-- A node prepares a claim that is not on record, and an assignment that comes after certain others is
allocated with the template that is named for it: the configuration of the highest precedence that applies
to the request and names a template of the table names this one, and the card of the device offers it. -/
structure NodeSetup.PreparesNamed (s : NodeSetup) (host : Host) (n : Node) (claim : ResourceClaim)
    (devices : List PreparedDevice) (configs : List RankedConfig) (before : List Assignment)
    (r : Assignment) (t : Template) (card : Card) : Prop where
  reached : s.Reaches host n
  table : ∃ text, TemplateTable.parse? text = some s.catalog
  absent : ∃ c, n.host.readCheckpoint = .ok c ∧ c.find? claim.uid = none
  fits : n.Fits (.prepare claim)
  prepared : (n.prepare claim).1 = .ok devices
  assigned : ∃ allocation after, claim.allocation = some allocation ∧
    resolveConfigs s.cdi.driverName s.claims.sources allocation.config = .ok configs ∧
    allocation.results.filter (·.driver = s.cdi.driverName) = before ++ r :: after
  named : ∃ c, IsLast (fun c => c.appliesTo r.request = true ∧ ∃ u, c.Names s.catalog u) configs c ∧
    c.Names s.catalog t
  located : ∃ key, (n.engineAfter configs before).locate? r.device = some (key, card)
  offered : t ∈ card.supported.toList
  allocated : ∃ a e, (n.engineAfter configs before).allocate r.device t.aiCore t.memoryGb = .ok (a, e)

/-- Whether a template is that of a device, and is announced to its container. -/
structure Engine.TellsTemplate (e : Engine) (id : String) (d : PreparedDevice) (name : String) : Prop where
  kept : e.templateOf id = .ok name
  announced : "ASCEND_VNPU_SPECS=" ++ name ∈ d.edits.env

theorem tellsTemplate_of_kept {e : Engine} {name : String} (cdiIds : List String)
    (configs : List RankedConfig) (hid : SliceId.isSliceId r.device = true)
    (hname : e.templateOf r.device = .ok name) (hne : name ≠ "") :
    e.TellsTemplate r.device (preparedDevice cdiIds configs e ⟨r, r.device⟩) name := by
  refine ⟨hname, ?_⟩
  have hsetting : templateSetting e r.device = ["ASCEND_VNPU_SPECS=" ++ name] := by
    rw [templateSetting, if_pos hid, hname]
    simp only
    rw [if_neg hne]
  simp [preparedDevice, deviceEdits, hsetting, ContainerEdits.ofEnv]

theorem NodeSetup.PreparesNamed.kept (h : s.PreparesNamed host n claim devices configs before r t card) :
    (∀ u ∈ card.supported.toList, u.name ≠ "") ∧ SliceId.isSliceId r.device = true ∧
      devices[before.length]? = some (preparedDevice
        [s.cdi.qualifiedName CdiRoot.common, s.cdi.qualifiedName claim.uid] configs
        (n.prepare claim).2.engine ⟨r, r.device⟩) ∧
      ∃ name, card.grantName? t.aiCore t.memoryGb = some name ∧
        (n.prepare claim).2.engine.templateOf r.device = .ok name := by
  obtain ⟨text, htable⟩ := h.table
  obtain ⟨c, hread, hnone⟩ := h.absent
  obtain ⟨allocation, after, ha, hr, hown⟩ := h.assigned
  obtain ⟨key, hlocate⟩ := h.located
  obtain ⟨_, _, hcatalog⟩ := h.reached.settings
  obtain ⟨allocation', configs', ha', hr', hcurrent, hfits, hall, _, hengine, hdevices⟩ :=
    h.reached.grants_assigned hread hnone h.fits h.prepared
  obtain rfl := Option.some.inj (ha.symm.trans ha')
  obtain rfl := Except.ok.inj (hr.symm.trans hr')
  rw [hown] at hfits hall hdevices
  obtain ⟨hturn, hsame, hlater, ds, hrest⟩ := hcurrent.grantAll_append hfits hall
  obtain ⟨_, _, _, _, hnext, hafter, hothers⟩ := hturn.grantAll_cons hlater hrest
  have hcatalogs : (n.engineAfter configs before).catalog = s.catalog := hsame.trans hcatalog
  have hcard := (hturn.sound key card (Engine.locate?_some hlocate).1).2
  obtain ⟨hid, name, hname, htaken⟩ := hturn.templateOf_take hnext
    (hcatalogs ▸ requestedTemplate?_eq_some_iff.2 h.named) hlocate h.allocated
  refine ⟨fun u hu => ?_, hid, ?_, name, hname, ?_⟩
  · exact TemplateTable.name_ne_empty htable (hcatalogs ▸ hcard.offered u hu)
  · rw [hdevices]
    simp
  · rw [hengine]
    exact hnext.templateOf_grantAll hafter hothers htaken

/-- A template that is named is the one that a device is carved with exactly if it has a size and no
template of the same shape that the card offers comes before it by name; the first of these is what the
device is carved with. Without a size it stands for the whole card, which has no template. -/
theorem NodeSetup.PreparesNamed.carves (h : s.PreparesNamed host n claim devices configs before r t card) :
    ∃ d, devices[before.length]? = some d ∧ d.device.deviceName = r.device ∧
      let engine := (n.prepare claim).2.engine
      (engine.TellsTemplate r.device d t.name ↔ ¬ (t.aiCore = 0 ∧ t.memoryGb = 0) ∧
        ∀ u ∈ card.supported.toList, u.aiCore = t.aiCore → u.memoryGb = t.memoryGb → t.name ≤ u.name) ∧
      (t.aiCore = 0 ∧ t.memoryGb = 0 → engine.templateOf r.device = .ok "") ∧
      (¬ (t.aiCore = 0 ∧ t.memoryGb = 0) → ∃ u ∈ card.supported.toList,
        u.aiCore = t.aiCore ∧ u.memoryGb = t.memoryGb ∧
        (∀ v ∈ card.supported.toList, v.aiCore = t.aiCore → v.memoryGb = t.memoryGb → u.name ≤ v.name) ∧
        engine.TellsTemplate r.device d u.name) := by
  obtain ⟨hnames, hid, hdevice, name, hname, hkept⟩ := h.kept
  refine ⟨_, hdevice, rfl, ?_⟩
  intro engine
  by_cases hzero : t.aiCore = 0 ∧ t.memoryGb = 0
  · rw [Card.grantName?, if_pos hzero] at hname
    cases hname
    refine ⟨iff_of_false (fun htells => ?_) fun hexact => hexact.1 hzero, fun _ => hkept,
      fun hsize => absurd hzero hsize⟩
    exact hnames t h.offered (Except.ok.inj (htells.kept.symm.trans hkept))
  · obtain ⟨u, hu, hbest, hcore, hmemory, hfirst⟩ := Catalog.bestFit_of_shape h.offered
    rw [Card.grantName?, if_neg hzero, hbest] at hname
    cases hname
    have htells := tellsTemplate_of_kept [s.cdi.qualifiedName CdiRoot.common,
      s.cdi.qualifiedName claim.uid] configs hid hkept (hnames u hu)
    refine ⟨⟨fun hnamed => ⟨hzero, fun v hv hvcore hvmemory => ?_⟩, fun ⟨_, hleast⟩ => ?_⟩,
      fun hnone => absurd hnone hzero, fun _ => ⟨u, hu, hcore, hmemory, hfirst, htells⟩⟩
    · have hsame : u.name = t.name := Except.ok.inj (hkept.symm.trans hnamed.kept)
      exact hsame ▸ hfirst v hv hvcore hvmemory
    · have hsame : u.name = t.name :=
        le_antisymm (hfirst t h.offered rfl rfl) (hleast u hu hcore hmemory)
      exact hsame ▸ htells

end Named

section Sample

def twinTable : String := "Name AICORE Memory\n() () ()\n==\nvir02 8 12GB\nvir02_1c 8 12GB\n"

def twinSetup : NodeSetup :=
  { sampleSetup with catalog := .ofList [⟨"vir02", 8, 12⟩, ⟨"vir02_1c", 8, 12⟩] }

def twinCards : Inventory × Engine :=
  discoverCard twinSetup.provider (.new "node-a", .new twinSetup.catalog .standard) ⟨0, "Ascend310P"⟩

def twinStart : Node := { sampleStart with engine := twinCards.2, inventory := twinCards.1 }

def twinClaim (name : String) : ResourceClaim :=
  ⟨"c-1", "default", "c-1", some ⟨[⟨"npu", "npu.example.com", "node-a", "npu-0-0"⟩],
    [⟨"FromClass", [], some ⟨"npu.example.com", (NpuConfig.ofTemplate name).toRaw⟩⟩]⟩⟩

def twinDevices (name : String) : List PreparedDevice :=
  ((twinStart.granting (twinClaim name)).1.toOption).getD []

theorem twinTable_parses : TemplateTable.parse? twinTable = some twinSetup.catalog := by
  decide +kernel

theorem twinStart_reached : twinSetup.Reaches sampleHost twinStart := by
  obtain ⟨host', hstart⟩ := Node.start_of_fresh twinSetup.cdi twinSetup.claims
    twinCards.2 twinCards.1 sampleHost (ok_of_toOption (by decide +kernel)) rfl (by decide +kernel)
  exact .start ⟨twinCards.1, twinCards.2, host', rfl, hstart⟩ .start

def twinConfigs (name : String) : List RankedConfig :=
  (resolveConfigs "npu.example.com" .classOnly
    [⟨"FromClass", [], some ⟨"npu.example.com", (NpuConfig.ofTemplate name).toRaw⟩⟩]).toOption.getD []

theorem twinStart_prepares {name : String} (hname : name ∈ ["vir02", "vir02_1c"]) :
    ∃ card, card.supported = twinSetup.catalog ∧
      (twinStart.prepare (twinClaim name)).2.engine = (twinStart.granting (twinClaim name)).2.engine ∧
      twinSetup.PreparesNamed sampleHost twinStart (twinClaim name) (twinDevices name) (twinConfigs name)
        [] ⟨"npu", "npu.example.com", "node-a", "npu-0-0"⟩ ⟨name, 8, 12⟩ card := by
  have hboth : ∀ name ∈ ["vir02", "vir02_1c"], (twinStart.granting (twinClaim name)).1.isOk = true ∧
      twinStart.engine.FitsThrough (claimCalls "npu.example.com" .classOnly (twinClaim name)
        ⟨twinStart.engine, twinStart.inventory, []⟩) ∧
      (resolveConfigs "npu.example.com" .classOnly
        [⟨"FromClass", [], some ⟨"npu.example.com", (NpuConfig.ofTemplate name).toRaw⟩⟩]).isOk = true ∧
      requestedTemplate? (twinConfigs name) "npu" twinSetup.catalog = some ⟨name, 8, 12⟩ ∧
      (⟨name, 8, 12⟩ : Template) ∈ twinSetup.catalog.toList := by decide +kernel
  obtain ⟨hgranted, hfits, hresolved, hnamed, hoffered⟩ := hboth name hname
  have hread : twinStart.host.readCheckpoint = .ok .new := sampleStart_read
  have hspec : (twinStart.host.writeClaimSpec twinStart.cdi "c-1" (twinDevices name)).1 = .ok () :=
    Node.writeClaimSpec_ok_of_prepare sampleStart_read rfl (congrArg Prod.fst sampleStart_prepare) _
  have hprepare := Node.prepare_ok hread rfl (ok_of_isOk hgranted []) hspec rfl
  have hok := congrArg Prod.fst hprepare
  have hcard : (twinStart.engine.locate? "npu-0-0").map (·.2.supported) = some twinSetup.catalog := by
    decide +kernel
  obtain ⟨⟨key, card⟩, hlocate, hsupported⟩ := Option.map_eq_some_iff.1 hcard
  have hallocate : (twinStart.engine.allocate "npu-0-0" 8 12).isOk = true := by decide +kernel
  refine ⟨card, hsupported, congrArg (·.2.engine) hprepare, twinStart_reached,
    ⟨twinTable, twinTable_parses⟩, ⟨.new, hread, rfl⟩, Node.fits_prepare hread rfl hok hfits, hok,
    ⟨_, [], rfl, ok_of_isOk hresolved [], rfl⟩, requestedTemplate?_eq_some_iff.1 hnamed,
    ⟨key, hlocate⟩, hsupported ▸ hoffered, ?_⟩
  cases ha : twinStart.engine.allocate "npu-0-0" 8 12 with
  | error err =>
    rw [ha] at hallocate
    cases hallocate
  | ok granted => exact ⟨granted.1, granted.2, ha⟩

theorem NodeSetup.PreparesNamed.carves_first : ∃ card, twinSetup.PreparesNamed sampleHost twinStart
      (twinClaim "vir02") (twinDevices "vir02") (twinConfigs "vir02") []
      ⟨"npu", "npu.example.com", "node-a", "npu-0-0"⟩ ⟨"vir02", 8, 12⟩ card ∧
    ∃ d, (twinDevices "vir02")[0]? = some d ∧
      (twinStart.prepare (twinClaim "vir02")).2.engine.TellsTemplate "npu-0-0" d "vir02" := by
  obtain ⟨card, hsupported, _, h⟩ := twinStart_prepares (List.mem_cons_self (a := "vir02"))
  obtain ⟨d, hd, _, hexact, _⟩ := h.carves
  refine ⟨card, h, d, hd, hexact.2 ⟨by decide, ?_⟩⟩
  rw [hsupported]
  decide +kernel

/-- The second of the two is not carved though it is named. -/
theorem not_carves_named : ¬ ∀ s host n claim devices configs before r t card,
    NodeSetup.PreparesNamed s host n claim devices configs before r t card →
      ∃ d, devices[before.length]? = some d ∧ (n.prepare claim).2.engine.TellsTemplate r.device d t.name := by
  intro hall
  obtain ⟨card, _, hengine, h⟩ :=
    twinStart_prepares (List.mem_cons_of_mem "vir02" (List.mem_cons_self (a := "vir02_1c")))
  obtain ⟨d, _, htells⟩ := hall _ _ _ _ _ _ _ _ _ _ h
  have hcarved : (twinStart.granting (twinClaim "vir02_1c")).2.engine.templateOf "npu-0-0" = .ok "vir02" := by
    decide +kernel
  have hkept := htells.kept
  rw [hengine, hcarved] at hkept
  exact absurd hkept (by decide)

end Sample

end SliceAgent
