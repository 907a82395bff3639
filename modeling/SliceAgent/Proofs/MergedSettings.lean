import SliceAgent.Proofs.ClassNames
import SliceAgent.Proofs.CommutingClaims
import SliceAgent.Proofs.PreparedDevices
import SliceAgent.Proofs.SparedSpecs

/-!
The environment of a container that has several devices. The settings of the devices are made one after
another, and of settings for one variable the last counts. A device keeps its settings exactly if the
devices agree where a variable is not named after a device, which takes a claim that stays on one card
(`NodeSetup.Reaches.keeps_settings_iff`).
-/
namespace SliceAgent

/-- A variable of a container and the value that it is given. -/
structure Setting where
  name : String
  value : String
deriving DecidableEq, Repr

namespace Setting

def text (s : Setting) : String := s.name ++ "=" ++ s.value

def parse (text : String) : Setting :=
  ⟨String.ofList (text.toList.takeWhile (· != '=')),
    String.ofList ((text.toList.dropWhile (· != '=')).drop 1)⟩

/-- The variables after all settings are made, in turn. -/
def environment (env : List String) : Dict String :=
  env.foldl (fun vars text => vars.insert (parse text).name (parse text).value) Dict.empty

def Agree (as bs : List Setting) : Prop := ∀ a ∈ as, ∀ b ∈ bs, a.name = b.name → a.value = b.value

variable {s a : Setting} {as bs cs : List Setting} {env : List String} {text : String}

theorem parse_text (hname : '=' ∉ s.name.toList) : parse s.text = s := by
  have htext : s.text.toList = s.name.toList ++ '=' :: s.value.toList := by
    simp [Setting.text]
  have hfree : ∀ c ∈ s.name.toList, (c != '=') = true :=
    fun c hc => bne_iff_ne.2 (ne_of_mem_of_not_mem hc hname)
  rw [parse, htext, List.takeWhile_append_of_pos hfree, List.dropWhile_append_of_pos hfree]
  simp

theorem environment_snoc : environment (env ++ [text]) =
    (environment env).insert (parse text).name (parse text).value := by
  rw [environment, List.foldl_append]
  rfl

theorem find?_environment (hmem : a ∈ env.map parse) (hall : Agree (env.map parse) [a]) :
    (environment env).find? a.name = some a.value := by
  -- The last setting decides, so the induction is from the end.
  induction env using List.reverseRecOn with
  | nil => cases hmem
  | append_singleton env text ih =>
    rw [List.map_append, List.map_singleton] at hmem hall
    rw [environment_snoc, Dict.find?_insert]
    split
    · rename_i hname
      have hlast := hall (parse text) (by simp) a (List.mem_singleton_self a) hname.symm
      rw [hlast]
    · rename_i hname
      have hbefore : a ∈ env.map parse := by
        refine (List.mem_append.1 hmem).resolve_right fun hlast => hname ?_
        rw [List.mem_singleton.1 hlast]
      exact ih hbefore fun b hb => hall b (List.mem_append_left _ hb)

theorem agree_comm : Agree as bs ↔ Agree bs as := by
  have hsymm : ∀ {as bs : List Setting}, Agree as bs → Agree bs as :=
    fun h b hb a ha hname => (h a ha b hb hname.symm).symm
  exact ⟨hsymm, hsymm⟩

theorem agree_append_left : Agree (as ++ bs) cs ↔ Agree as cs ∧ Agree bs cs := List.forall_mem_append

theorem agree_append_right : Agree cs (as ++ bs) ↔ Agree cs as ∧ Agree cs bs :=
  calc Agree cs (as ++ bs) ↔ Agree (as ++ bs) cs := agree_comm
    _ ↔ Agree as cs ∧ Agree bs cs := agree_append_left
    _ ↔ Agree cs as ∧ Agree cs bs := and_congr agree_comm agree_comm

theorem agree_of_names (h : ∀ a ∈ as, ∀ b ∈ bs, a.name ≠ b.name) : Agree as bs :=
  fun a ha b hb hname => absurd hname (h a ha b hb)

end Setting

open Setting

/-- What a container reads that is given all devices of a specification. -/
def CdiSpec.env (spec : CdiSpec) : List String := spec.devices.flatMap (·.edits.env)

/-- Whether each of some devices has all its settings in the container that is given a specification. -/
def CdiSpec.KeepsSettings (spec : CdiSpec) (devices : List PreparedDevice) : Prop :=
  ∀ d ∈ devices, ∀ a ∈ d.edits.env.map parse, (environment spec.env).find? a.name = some a.value

instance (spec : CdiSpec) (devices : List PreparedDevice) : Decidable (spec.KeepsSettings devices) :=
  inferInstanceAs (Decidable (∀ d ∈ devices, ∀ a ∈ d.edits.env.map parse, _ = _))

section Spec

variable {r : CdiRoot} {uid : String} {spec : CdiSpec} {devices : List PreparedDevice}

theorem CdiRoot.env_claimSpec :
    (r.spec uid (CdiRoot.claimEdits devices)).env = devices.flatMap (·.edits.env) := by
  rw [CdiSpec.env, spec, List.flatMap_singleton, claimEdits, ContainerEdits.concat_eq, List.flatMap_map]

theorem CdiSpec.keepsSettings_iff (henv : spec.env = devices.flatMap (·.edits.env)) :
    spec.KeepsSettings devices ↔
      ∀ d ∈ devices, ∀ d' ∈ devices, Agree (d.edits.env.map parse) (d'.edits.env.map parse) := by
  constructor
  · intro h d hd d' hd' a ha b hb hname
    have hvalue := h d hd a ha
    rw [hname, h d' hd' b hb] at hvalue
    exact (Option.some.inj hvalue).symm
  · intro h d hd a ha
    rw [henv]
    refine find?_environment ?_ ?_
    · rw [List.map_flatMap]
      exact List.mem_flatMap.2 ⟨d, hd, ha⟩
    · rw [List.map_flatMap]
      intro b hb a' ha'
      obtain ⟨d', hd', hb⟩ := List.mem_flatMap.1 hb
      cases List.mem_singleton.1 ha'
      exact h d' hd' d hd b hb a ha

end Spec

section Device

variable {e : Engine} {i j : SliceId} {s t : Sharing} {p q : Setting}

theorem suffix_text (i : SliceId) : (SliceId.suffix i.text).toList =
    (Text.decimal i.card.toNat).toList ++ '-' :: (Text.decimal i.counter.toNat).toList := by
  rw [SliceId.suffix, SliceId.afterLead?_text, String.toList_ofList]

theorem not_mem_suffix {c : Char} (hdash : c ≠ '-') (hdigit : c.isDigit = false) :
    c ∉ (SliceId.suffix i.text).toList := by
  have hnot : ∀ n, c ∉ (Text.decimal n).toList := by
    intro n hc
    cases hdigit.symm.trans (isDigit_of_mem_decimal hc)
  rw [suffix_text]
  simp only [List.mem_append, List.mem_cons, not_or]
  exact ⟨hnot _, hdash, hnot _⟩

theorem suffix_injective (h : SliceId.suffix i.text = SliceId.suffix j.text) : i = j := by
  have hlist := congrArg String.toList h
  rw [suffix_text, suffix_text] at hlist
  refine SliceId.text_injective (String.toList_inj.1 ?_)
  simpa [SliceId.text] using hlist

/-- A setting of how a device is shared, which is named after the device. -/
def Setting.ofDevice (i : SliceId) (p : Setting) : Setting :=
  ⟨"NPU_DEVICE_" ++ SliceId.suffix i.text ++ p.name, p.value⟩

def Sharing.parameter (s : Sharing) : Setting :=
  match s.strategy with
  | .timeSlicing => ⟨"_TIMESLICE_INTERVAL", (s.timeSlice.getD .default).name⟩
  | .spacePartitioning => ⟨"_PARTITION_COUNT", Text.decimalInt (s.partitionCount.getD 1).toInt⟩

def Sharing.settings (s : Sharing) : List Setting :=
  [⟨"_SHARING_STRATEGY", s.strategy.name⟩, s.parameter]

def sharingEndings : List String := ["_SHARING_STRATEGY", "_TIMESLICE_INTERVAL", "_PARTITION_COUNT"]

def templateSettings (e : Engine) (i : SliceId) : List Setting :=
  match e.templateOf i.text with
  | .ok name => if name = "" then [] else [⟨"ASCEND_VNPU_SPECS", name⟩]
  | .error _ => []

def commonVariables : List String := ["ASCEND_VISIBLE_DEVICES", "ASCEND_VNPU_SPECS"]

def visibleSetting (i : SliceId) : Setting := ⟨"ASCEND_VISIBLE_DEVICES", Text.decimal i.card.toNat⟩

def deviceSettings (e : Engine) (i : SliceId) (s : Sharing) : List Setting :=
  visibleSetting i :: templateSettings e i ++ s.settings.map (.ofDevice i)

theorem env_deviceEdits (e : Engine) (i : SliceId) (c : NpuConfig) :
    (deviceEdits e i.text c.normalize).env =
      (deviceSettings e i (c.sharing.getD ⟨.timeSlicing, none, none⟩)).map Setting.text := by
  have hvisible : "ASCEND_VISIBLE_DEVICES=" ++ visibleDevice i.text = (visibleSetting i).text := by
    rw [visibleDevice, SliceId.parse?_text]
    rfl
  have htemplate : templateSetting e i.text = (templateSettings e i).map Setting.text := by
    have hslice : SliceId.isSliceId i.text = true := by
      rw [SliceId.isSliceId, SliceId.parse?_text]
      rfl
    rw [templateSetting, if_pos hslice, templateSettings]
    cases e.templateOf i.text with
    | error err => rfl
    | ok name =>
      simp only
      split <;> rfl
  have hshared : ∀ s : Sharing, sharingSettings i.text s.normalize =
      (s.settings.map (.ofDevice i)).map Setting.text := by
    rintro ⟨strategy, timeSlice, partitionCount⟩
    cases strategy <;>
      simp [sharingSettings, Sharing.normalize, Sharing.settings, Sharing.parameter, ofDevice,
        Setting.text, String.append_assoc]
  rw [deviceEdits, hvisible, htemplate, deviceSettings, List.map_append, ← hshared]
  rfl

theorem mem_templateSettings : p ∈ templateSettings e i ↔
    ∃ name, e.templateOf i.text = .ok name ∧ name ≠ "" ∧ p = ⟨"ASCEND_VNPU_SPECS", name⟩ := by
  unfold templateSettings
  cases e.templateOf i.text with
  | error err => simp
  | ok name => by_cases hname : name = "" <;> simp [hname]

theorem Sharing.name_of_mem_settings (hp : p ∈ s.settings) : p.name ∈ sharingEndings := by
  rcases List.mem_cons.1 hp with rfl | hp
  · simp [sharingEndings]
  · rw [List.mem_singleton.1 hp, parameter]
    split <;> simp [sharingEndings]

theorem name_of_mem_lead (hp : p ∈ visibleSetting i :: templateSettings e i) :
    p.name ∈ commonVariables := by
  rcases List.mem_cons.1 hp with rfl | hp
  · exact List.mem_cons_self
  · obtain ⟨name, _, _, rfl⟩ := mem_templateSettings.1 hp
    exact List.mem_cons_of_mem _ List.mem_cons_self

theorem not_mem_name (hp : p ∈ deviceSettings e i s) : '=' ∉ p.name.toList := by
  rcases List.mem_append.1 hp with hp | hp
  · have hcommon : ∀ x ∈ commonVariables, '=' ∉ x.toList := by decide
    exact hcommon _ (name_of_mem_lead hp)
  · obtain ⟨q, hq, rfl⟩ := List.mem_map.1 hp
    have hendings : ∀ x ∈ sharingEndings, '=' ∉ x.toList := by decide
    simp only [ofDevice, String.toList_append, List.mem_append, not_or]
    exact ⟨⟨by decide, not_mem_suffix (by decide) (by decide)⟩,
      hendings _ (Sharing.name_of_mem_settings hq)⟩

theorem parse_env_deviceEdits (e : Engine) (i : SliceId) (c : NpuConfig) :
    (deviceEdits e i.text c.normalize).env.map parse =
      deviceSettings e i (c.sharing.getD ⟨.timeSlicing, none, none⟩) := by
  have hparse : ∀ p ∈ deviceSettings e i (c.sharing.getD ⟨.timeSlicing, none, none⟩),
      (parse ∘ Setting.text) p = id p := fun p hp => parse_text (not_mem_name hp)
  rw [env_deviceEdits, List.map_map, List.map_congr_left hparse, List.map_id]

theorem ofDevice_name_inj (hp : p ∈ s.settings) (hq : q ∈ t.settings)
    (h : (p.ofDevice i).name = (q.ofDevice j).name) : i = j ∧ p.name = q.name := by
  have htail : ∀ {p : Setting} {s : Sharing}, p ∈ s.settings → ∃ rest, p.name.toList = '_' :: rest := by
    intro p s hp
    have hendings : ∀ x ∈ sharingEndings, x.toList = '_' :: x.toList.tail := by decide
    exact ⟨_, hendings _ (Sharing.name_of_mem_settings hp)⟩
  obtain ⟨rest, hrest⟩ := htail hp
  obtain ⟨rest', hrest'⟩ := htail hq
  have hfree : ∀ i, ∀ c ∈ (SliceId.suffix (SliceId.text i)).toList, (c != '_') = true :=
    fun i c hc => bne_iff_ne.2 (ne_of_mem_of_not_mem hc (not_mem_suffix (by decide) (by decide)))
  have hlist := congrArg String.toList h
  simp only [ofDevice, String.toList_append, List.append_assoc, List.append_cancel_left_eq, hrest,
    hrest'] at hlist
  -- No device has a low line in its name, so the name ends at the first one on either side.
  have hsuffix := congrArg (List.takeWhile (· != '_')) hlist
  simp only [List.takeWhile_append_of_pos (hfree _), List.takeWhile_cons, bne_self_eq_false,
    Bool.false_eq_true, if_false, List.append_nil] at hsuffix
  obtain rfl := suffix_injective (String.toList_inj.1 hsuffix)
  refine ⟨rfl, String.toList_inj.1 ?_⟩
  rw [hrest, hrest']
  exact List.append_cancel_left hlist

theorem agree_ofDevice : Agree (s.settings.map (.ofDevice i)) (t.settings.map (.ofDevice j)) ↔
    (i = j → Agree s.settings t.settings) := by
  constructor
  · rintro h rfl a ha b hb hname
    have hname' : (a.ofDevice i).name = (b.ofDevice i).name := by rw [ofDevice, ofDevice, hname]
    exact h (a.ofDevice i) (List.mem_map_of_mem ha) (b.ofDevice i) (List.mem_map_of_mem hb) hname'
  · intro h a ha b hb hname
    obtain ⟨p, hp, rfl⟩ := List.mem_map.1 ha
    obtain ⟨q, hq, rfl⟩ := List.mem_map.1 hb
    obtain ⟨hij, hpq⟩ := ofDevice_name_inj hp hq hname
    exact h hij p hp q hq hpq

theorem Sharing.parameter_name_ne (s : Sharing) : s.parameter.name ≠ "_SHARING_STRATEGY" := by
  unfold parameter
  split <;> simp

theorem Sharing.agree_settings : Agree s.settings t.settings ↔ s.settings = t.settings := by
  constructor
  · intro h
    have hstrategy : s.strategy.name = t.strategy.name :=
      h _ List.mem_cons_self _ List.mem_cons_self rfl
    have hsame : s.strategy = t.strategy := by
      cases hs : s.strategy <;> cases ht : t.strategy <;> simp [hs, ht, SharingStrategy.name] at hstrategy ⊢
    have hname : s.parameter.name = t.parameter.name := by
      rw [parameter, parameter, hsame]
      split <;> rfl
    have hvalue := h s.parameter (by simp [settings]) t.parameter (by simp [settings]) hname
    have hparameter : s.parameter = t.parameter := by
      cases hs : s.parameter
      cases ht : t.parameter
      rw [hs, ht] at hname hvalue
      cases hname
      cases hvalue
      rfl
    rw [settings, settings, hstrategy, hparameter]
  · intro h
    rw [h]
    intro a ha b hb hname
    simp only [settings, List.mem_cons, List.not_mem_nil, or_false] at ha hb
    rcases ha with rfl | rfl <;> rcases hb with rfl | rfl
    · rfl
    · exact absurd hname.symm t.parameter_name_ne
    · exact absurd hname t.parameter_name_ne
    · rfl

theorem agree_templateSettings : Agree (templateSettings e i) (templateSettings e j) ↔
    ∀ name name', e.templateOf i.text = .ok name → e.templateOf j.text = .ok name' →
      name ≠ "" → name' ≠ "" → name = name' := by
  constructor
  · intro h name name' hi hj hne hne'
    exact h _ (mem_templateSettings.2 ⟨name, hi, hne, rfl⟩) _
      (mem_templateSettings.2 ⟨name', hj, hne', rfl⟩) rfl
  · intro h a ha b hb _
    obtain ⟨name, hi, hne, rfl⟩ := mem_templateSettings.1 ha
    obtain ⟨name', hj, hne', rfl⟩ := mem_templateSettings.1 hb
    exact h name name' hi hj hne hne'

theorem agree_lead : Agree (visibleSetting i :: templateSettings e i) (s.settings.map (.ofDevice j)) := by
  refine agree_of_names fun a ha b hb hname => ?_
  obtain ⟨q, _, rfl⟩ := List.mem_map.1 hb
  have hcommon : ∀ x ∈ commonVariables, x.toList.head? ≠ some 'N' := by decide
  refine hcommon _ (name_of_mem_lead ha) ?_
  rw [hname]
  simp [ofDevice]

theorem agree_visible : Agree [visibleSetting i] [visibleSetting j] ↔ i.card = j.card := by
  constructor
  · intro h
    have hdecimal := h _ (List.mem_singleton_self _) _ (List.mem_singleton_self _) rfl
    exact UInt32.toNat_inj.1 (decimal_injective hdecimal)
  · rintro hij a ha b hb _
    rw [List.mem_singleton.1 ha, List.mem_singleton.1 hb, visibleSetting, visibleSetting, hij]

theorem agree_visible_template : Agree [visibleSetting i] (templateSettings e j) := by
  refine agree_of_names fun a ha b hb => ?_
  obtain ⟨name, _, _, rfl⟩ := mem_templateSettings.1 hb
  rw [List.mem_singleton.1 ha]
  simp [visibleSetting]

theorem agree_deviceSettings : Agree (deviceSettings e i s) (deviceSettings e j t) ↔
    i.card = j.card ∧
    (∀ name name', e.templateOf i.text = .ok name → e.templateOf j.text = .ok name' →
      name ≠ "" → name' ≠ "" → name = name') ∧
    (i = j → s.settings = t.settings) := by
  have hsplit : ∀ k (u : Sharing), deviceSettings e k u =
      ([visibleSetting k] ++ templateSettings e k) ++ u.settings.map (.ofDevice k) := fun _ _ => rfl
  have hlead : ∀ k l (u : Sharing),
      Agree ([visibleSetting k] ++ templateSettings e k) (u.settings.map (.ofDevice l)) :=
    fun _ _ _ => agree_lead
  have hshared : ∀ as : List Setting, Agree (s.settings.map (.ofDevice i))
      (as ++ t.settings.map (.ofDevice j)) ↔ Agree (s.settings.map (.ofDevice i)) as ∧
        Agree (s.settings.map (.ofDevice i)) (t.settings.map (.ofDevice j)) :=
    fun _ => agree_append_right
  rw [hsplit, hsplit, agree_append_left, agree_append_right, hshared, and_iff_left (hlead i j t),
    and_iff_right (agree_comm.1 (hlead j i s)), agree_append_left, agree_append_right,
    agree_append_right, and_iff_left agree_visible_template,
    and_iff_right (agree_comm.1 agree_visible_template), agree_visible, agree_templateSettings,
    agree_ofDevice, Sharing.agree_settings, and_assoc]

theorem Setting.ofDevice_injective : Function.Injective (Setting.ofDevice i) := by
  rintro ⟨name, value⟩ ⟨name', value'⟩ h
  simp only [ofDevice, mk.injEq, ← String.toList_inj, String.toList_append,
    List.append_cancel_left_eq] at h
  rw [String.toList_inj.1 h.1, String.toList_inj.1 h.2]

theorem deviceEdits_eq_iff {c c' : NpuConfig} :
    deviceEdits e i.text c.normalize = deviceEdits e i.text c'.normalize ↔
      (c.sharing.getD ⟨.timeSlicing, none, none⟩).settings =
        (c'.sharing.getD ⟨.timeSlicing, none, none⟩).settings := by
  have henv : deviceEdits e i.text c.normalize = deviceEdits e i.text c'.normalize ↔
      (deviceEdits e i.text c.normalize).env = (deviceEdits e i.text c'.normalize).env :=
    ⟨congrArg _, fun h => congrArg ContainerEdits.ofEnv h⟩
  rw [henv]
  constructor
  · intro h
    have hparsed := congrArg (List.map parse) h
    rw [parse_env_deviceEdits, parse_env_deviceEdits] at hparsed
    exact List.map_injective_iff.2 ofDevice_injective (List.append_cancel_left hparsed)
  · intro h
    rw [env_deviceEdits, env_deviceEdits, deviceSettings, deviceSettings, h]

end Device

/-- Whether one container can have two devices of a claim: they are on one card, were not carved with
templates of different names, and are given in one way if they are the same. -/
structure PreparedDevice.Combines (e : Engine) (d d' : PreparedDevice) : Prop where
  card : ∃ card counter counter', d.device.deviceName = SliceId.text ⟨card, counter⟩ ∧
    d'.device.deviceName = SliceId.text ⟨card, counter'⟩
  template : ∀ name name', e.templateOf d.device.deviceName = .ok name →
    e.templateOf d'.device.deviceName = .ok name' → name ≠ "" → name' ≠ "" → name = name'
  shared : d.device.deviceName = d'.device.deviceName → d.edits = d'.edits

theorem agree_iff_combines {e : Engine} {i j : SliceId} {c c' : NpuConfig} {d d' : PreparedDevice}
    (hname : d.device.deviceName = i.text) (hedits : d.edits = deviceEdits e i.text c.normalize)
    (hname' : d'.device.deviceName = j.text) (hedits' : d'.edits = deviceEdits e j.text c'.normalize) :
    Agree (d.edits.env.map parse) (d'.edits.env.map parse) ↔ d.Combines e d' := by
  rw [hedits, hedits', parse_env_deviceEdits, parse_env_deviceEdits, agree_deviceSettings]
  constructor
  · rintro ⟨hcard, htemplate, hshared⟩
    refine ⟨⟨i.card, i.counter, j.counter, hname, ?_⟩, ?_, fun hsame => ?_⟩
    · rw [hname', hcard]
    · rwa [hname, hname']
    · have hij := SliceId.text_injective (hname.symm.trans (hsame.trans hname'))
      rw [hedits, hedits', ← hij, deviceEdits_eq_iff]
      exact hshared hij
  · rintro ⟨⟨card, counter, counter', hcard, hcard'⟩, htemplate, hshared⟩
    refine ⟨?_, ?_, fun hij => ?_⟩
    · rw [SliceId.text_injective (hname.symm.trans hcard), SliceId.text_injective (hname'.symm.trans hcard')]
    · rwa [hname, hname'] at htemplate
    · have hsame := hshared (by rw [hname, hname', hij])
      rw [hedits, hedits', ← hij] at hsame
      exact deviceEdits_eq_iff.1 hsame

section Claim

variable {s : NodeSetup} {host : Host} {n : Node} {claim : ResourceClaim} {c : Checkpoint}
  {devices : List PreparedDevice}

theorem Engine.Sound.exists_id_of_knows {e : Engine} {name : String} (h : e.Sound) (hk : e.Knows name) :
    ∃ i : SliceId, name = i.text := by
  obtain ⟨key, card, hcard, hmem⟩ := hk
  obtain ⟨counter, hname⟩ := (h key card hcard).2.exists_counter hmem
  exact ⟨_, hname⟩

/-- A claim that is prepared anew has a specification with the settings of all its devices, one after
another. Read in this order, it keeps the settings of each device exactly if any two devices can be in one
container. -/
theorem NodeSetup.Reaches.keeps_settings_iff (h : s.Reaches host n)
    (hread : n.host.readCheckpoint = .ok c) (hnone : c.find? claim.uid = none)
    (hfit : n.Fits (.prepare claim)) (hok : (n.prepare claim).1 = .ok devices) :
    ∃ spec, s.cdi.read (n.prepare claim).2.host.files claim.uid = .ok spec ∧
      spec.env = devices.flatMap (·.edits.env) ∧
      (spec.KeepsSettings devices ↔
        ∀ d ∈ devices, ∀ d' ∈ devices, d.Combines (n.prepare claim).2.engine d') := by
  have hspec := Node.read_of_prepare hread hnone hok
  rw [h.settings.1] at hspec
  refine ⟨_, CdiRoot.read_of_content hspec, CdiRoot.env_claimSpec, ?_⟩
  obtain ⟨allocation, configs, _, _, hcurrent, hfits, hall, _, hengine, hdevices⟩ :=
    h.grants_assigned hread hnone hfit hok
  obtain ⟨hafter, _, hasIs, _⟩ := Granting.asIs_of_grantAll hcurrent hfits hall
  have hmade : ∀ d ∈ devices, ∃ i : SliceId, ∃ config : NpuConfig, d.device.deviceName = i.text ∧
      d.edits = deviceEdits (n.prepare claim).2.engine i.text config.normalize := by
    intro d hd
    rw [hdevices, List.map_map] at hd
    obtain ⟨r, hr, rfl⟩ := List.mem_map.1 hd
    obtain ⟨i, hi⟩ := hafter.sound.exists_id_of_knows (hafter.contains_iff.1 (hasIs r hr).known)
    exact ⟨i, _, hi, congrArg (deviceEdits _ · _) hi⟩
  rw [CdiSpec.keepsSettings_iff CdiRoot.env_claimSpec]
  refine forall₂_congr fun d hd => forall₂_congr fun d' hd' => ?_
  obtain ⟨i, config, hname, hedits⟩ := hmade d hd
  obtain ⟨j, config', hname', hedits'⟩ := hmade d' hd'
  exact agree_iff_combines hname hedits hname' hedits'

end Claim

section Sample

theorem sampleDevices_one : ∃ d, sampleDevices = [d] ∧ d.device.deviceName = SliceId.text ⟨0, 0⟩ := by
  have hnames : sampleDevices.map (·.device.deviceName) = [SliceId.text ⟨0, 0⟩] := by decide +kernel
  obtain ⟨d, hdevices, hname⟩ := List.map_eq_singleton_iff.1 hnames
  exact ⟨d, hdevices, hname⟩

theorem NodeSetup.Reaches.keeps_settings_iff_one : sampleSetup.Reaches sampleHost sampleStart ∧
    ∃ spec, sampleSetup.cdi.read (sampleStart.prepare (sampleClaim "c-1" "npu-0-0")).2.host.files "c-1" =
      .ok spec ∧ spec.KeepsSettings sampleDevices := by
  have hreached : sampleSetup.Reaches sampleHost sampleStart := .start sampleStart_starts .start
  have hok := congrArg Prod.fst sampleStart_prepare
  have hfit : sampleStart.Fits (.prepare (sampleClaim "c-1" "npu-0-0")) :=
    Node.fits_prepare sampleStart_read rfl hok (by decide +kernel)
  obtain ⟨spec, hspec, _, hkeeps⟩ :=
    NodeSetup.Reaches.keeps_settings_iff hreached sampleStart_read rfl hfit hok
  refine ⟨hreached, spec, hspec, hkeeps.2 ?_⟩
  obtain ⟨d, hdevices, hname⟩ := sampleDevices_one
  rw [hdevices]
  intro a ha b hb
  rw [List.mem_singleton.1 ha, List.mem_singleton.1 hb]
  refine ⟨⟨0, 0, 0, hname, hname⟩, fun name name' ht ht' _ _ => ?_, fun _ => rfl⟩
  exact Except.ok.inj (ht.symm.trans ht')

def bothCards : ResourceClaim :=
  ⟨"c-1", "default", "c-1", some ⟨[⟨"npu", "npu.example.com", "node-a", "npu-0-0"⟩,
    ⟨"npu", "npu.example.com", "node-a", "npu-1-0"⟩], []⟩⟩

theorem twoCardStart_read : twoCardStart.host.readCheckpoint = .ok .new := sampleStart_read

theorem bothCards_prepare :
    (twoCardStart.prepare bothCards).1 = .ok (twoCardStart.granted bothCards) := by
  have hspec := Node.writeClaimSpec_ok_of_prepare sampleStart_read rfl
    (congrArg Prod.fst sampleStart_prepare) (twoCardStart.granted bothCards)
  have hgranted : (twoCardStart.granting bothCards).1 = .ok (twoCardStart.granted bothCards) :=
    ok_of_isOk (by decide +kernel) []
  exact congrArg Prod.fst (Node.prepare_ok twoCardStart_read rfl hgranted hspec rfl)

/-- A container that is given both cards sees only the last of them. -/
theorem CdiSpec.not_keepsSettings : ¬ ∀ (s : NodeSetup) (host : Host) (n : Node) (claim : ResourceClaim)
    (c : Checkpoint) (devices : List PreparedDevice) (spec : CdiSpec), s.Reaches host n →
      n.host.readCheckpoint = .ok c → c.find? claim.uid = none → n.Fits (.prepare claim) →
      (n.prepare claim).1 = .ok devices →
      s.cdi.read (n.prepare claim).2.host.files claim.uid = .ok spec → spec.KeepsSettings devices := by
  intro h
  have hfit : twoCardStart.Fits (.prepare bothCards) :=
    Node.fits_prepare twoCardStart_read rfl bothCards_prepare (by decide +kernel)
  have hspec := CdiRoot.read_of_content (Node.read_of_prepare twoCardStart_read rfl bothCards_prepare)
  have hkeeps := h twoCardSetup sampleHost twoCardStart bothCards .new _ _ twoCardStart_reached
    twoCardStart_read rfl hfit bothCards_prepare hspec
  exact absurd hkeeps (by decide +kernel)

end Sample

end SliceAgent
