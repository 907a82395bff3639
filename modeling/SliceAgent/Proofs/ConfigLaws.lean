import SliceAgent.Node.Grant
import SliceAgent.Proofs.MemberOrder

/-!
What holds of every configuration of this agent's kind. It is read back from its raw parameters, filling in
what is implied keeps what is given, and a configuration that is consistent then gives a device one setting
for the strategy and one for the parameter of that strategy (`NpuConfig.laws`).
-/
namespace SliceAgent

section Wire

open Fields

theorem Decoder.int32_ofJson (n : Int32) : int32 .json (Doc.ofJson (.int n.toInt)) = .ok n := by
  have hbounds : Int32.minValue.toInt ≤ n.toInt ∧ n.toInt ≤ Int32.maxValue.toInt :=
    ⟨n.le_toInt, n.toInt_le⟩
  show Int32.ofInt <$> integer _ _ "i32" .json (.int n.toInt) = _
  rw [integer]
  simp only [if_pos hbounds]
  exact congrArg Except.ok n.ofInt_toInt

theorem SharingStrategy.decode_name (s : SharingStrategy) :
    SharingStrategy.decode .json (.str s.name) = .ok s := by
  cases s <;> rfl

theorem TimeSlice.decode_canonical (t : TimeSlice) :
    decode .json (Doc.ofJson t.encode.canonical) = .ok t := by
  cases t <;> rfl

theorem Sharing.decodeCount_canonical (n : Int32) :
    decodeCount .json (Doc.ofJson (encodeCount n).canonical) = .ok n := by
  have htakes : countFields.Takes [("partitionCount", .int n.toInt)] n :=
    (takes_pure id).field (takes_field (Decoder.int32_ofJson n)) rfl
  exact Decoder.record_ofJson htakes

theorem ofJson_canonical_obj_ne_null (ms : List (String × Json)) :
    Doc.ofJson (Json.obj ms).canonical ≠ .null := nofun

theorem Sharing.orderly_fields : Sharing.fields.Orderly :=
  (((orderly_pure Sharing.mk).seq (orderly_field _ _ _)).seq (orderly_field _ _ _)).seq
    (orderly_field _ _ _)

theorem Sharing.takes_fields (s : Sharing) : fields.Takes
    ([("strategy", .str s.strategy.name)]
      ++ Json.member? "timeSlicingConfig" (fun t => t.encode.canonical) s.timeSlice
      ++ Json.member? "spacePartitioningConfig" (fun n => (encodeCount n).canonical) s.partitionCount) s :=
  (((takes_pure Sharing.mk).field (takes_field s.strategy.decode_name) rfl).field
    (takes_member? TimeSlice.decode_canonical (fun _ => ofJson_canonical_obj_ne_null _) s.timeSlice) rfl).field
    (takes_member? decodeCount_canonical (fun _ => ofJson_canonical_obj_ne_null _) s.partitionCount) rfl

theorem Sharing.decode_canonical (s : Sharing) :
    decode .json (Doc.ofJson s.encode.canonical) = .ok s := by
  have hreads := s.takes_fields.reads_with [] nofun
  refine Decoder.record_canonical orderly_fields ?_ ?_
  · obtain ⟨strategy, timeSlice, partitionCount⟩ := s
    cases timeSlice <;> cases partitionCount <;> simp [Json.member?]
  · simpa only [List.append_nil, List.map_append, List.map_cons, List.cons_append, List.nil_append,
      Json.canonicalMember_str, Json.map_canonicalMember_member?] using hreads

theorem NpuConfig.decodeTemplate_canonical (name : String) :
    decodeTemplate .json (Doc.ofJson (encodeTemplate name).canonical) = .ok name := rfl

theorem NpuConfig.orderly_fields : NpuConfig.fields.Orderly :=
  ((((orderly_pure NpuConfig.mk).seq (orderly_field _ _ _)).seq (orderly_field _ _ _)).seq
    (orderly_field _ _ _)).seq (orderly_field _ _ _)

theorem NpuConfig.orderly_kindFields : kindFields.Orderly :=
  ((orderly_pure Prod.mk).seq (orderly_field _ _ _)).seq (orderly_field _ _ _)

namespace NpuConfig

theorem takes_kindFields (c : NpuConfig) :
    kindFields.Takes [("apiVersion", .str c.apiVersion), ("kind", .str c.kind)] (c.apiVersion, c.kind) :=
  ((takes_pure Prod.mk).field (takes_field rfl) rfl).field (takes_field rfl) rfl

theorem takes_fields (c : NpuConfig) : fields.Takes
    ([("apiVersion", .str c.apiVersion), ("kind", .str c.kind)]
      ++ Json.member? "sharing" (fun s => s.encode.canonical) c.sharing
      ++ Json.member? "vnpuSpec" (fun t => (encodeTemplate t).canonical) c.template) c :=
  ((((takes_pure NpuConfig.mk).field (takes_field rfl) rfl).field (takes_field rfl) rfl).field
    (takes_member? Sharing.decode_canonical (fun _ => ofJson_canonical_obj_ne_null _) c.sharing) rfl).field
    (takes_member? decodeTemplate_canonical (fun _ => ofJson_canonical_obj_ne_null _) c.template) rfl

theorem keys_nodup (c : NpuConfig) :
    ((([("apiVersion", .str c.apiVersion), ("kind", .str c.kind)] : List (String × Json))
      ++ Json.member? "sharing" Sharing.encode c.sharing
      ++ Json.member? "vnpuSpec" encodeTemplate c.template).map (·.1)).Nodup := by
  obtain ⟨apiVersion, kind, sharing, template⟩ := c
  cases sharing <;> cases template <;> simp [Json.member?]

theorem decode_canonical (c : NpuConfig) :
    Decoder.record "NpuConfig" fields .json (Doc.ofJson c.encode.canonical) = .ok c := by
  have hreads := c.takes_fields.reads_with [] nofun
  refine Decoder.record_canonical orderly_fields c.keys_nodup ?_
  simpa only [List.append_nil, List.map_append, List.map_cons, List.map_nil,
    Json.canonicalMember_str, Json.map_canonicalMember_member?] using hreads

theorem decodeKind_canonical (c : NpuConfig) :
    Decoder.record "TypeMeta" kindFields .json (Doc.ofJson c.encode.canonical) =
      .ok (c.apiVersion, c.kind) := by
  have hunknown : ∀ m ∈ Json.member? "sharing" (fun s => s.encode.canonical) c.sharing
      ++ Json.member? "vnpuSpec" (fun t => (encodeTemplate t).canonical) c.template,
      kindFields.enter? m.1 = none := by
    intro m hm
    rcases List.mem_append.1 hm with hm | hm
    · rw [Json.key_of_mem_member? hm]
      rfl
    · rw [Json.key_of_mem_member? hm]
      rfl
  have hreads := c.takes_kindFields.reads_with _ hunknown
  refine Decoder.record_canonical orderly_kindFields c.keys_nodup ?_
  simpa only [List.append_assoc, List.map_append, List.map_cons, List.map_nil,
    Json.canonicalMember_str, Json.map_canonicalMember_member?] using hreads

def IsOwn (c : NpuConfig) : Prop := c.apiVersion = ownApiVersion ∧ c.kind = ownKind

theorem ofRaw_toRaw {c : NpuConfig} (h : c.IsOwn) : ofRaw c.toRaw.json = .ok c := by
  have hkind : ¬ (c.apiVersion ≠ ownApiVersion ∨ c.kind ≠ ownKind) := by
    rw [not_or]
    exact ⟨not_not.2 h.1, not_not.2 h.2⟩
  show ofRaw c.encode.canonical = _
  rw [ofRaw, decodeKind_canonical]
  simp only [if_neg hkind, decode_canonical]

def leadFields : Fields (Option Sharing → Option String → NpuConfig) :=
  NpuConfig.mk <$> .required "apiVersion" Decoder.string <*> .required "kind" Decoder.string

theorem visit_kindFields {k : String} {d : Doc} {r s : kindFields.Draft} :
    leadFields.visit .json r (.str k, d) = .ok s ↔ kindFields.visit .json r (.str k, d) = .ok s := by
  by_cases hv : k = "apiVersion"
  · subst hv
    exact Iff.rfl
  · by_cases hk : k = "kind"
    · subst hk
      exact Iff.rfl
    · have hlead : leadFields.enter? k = none := by
        simp [leadFields, Functor.map, Seq.seq, seq, Fields.pure, required, field, hv, hk]
      have hkind : kindFields.enter? k = none := by
        simp [kindFields, Functor.map, Seq.seq, seq, Fields.pure, defaulted, field, hv, hk]
      rw [visit_unknown hkind]
      exact visit_unknown (x := leadFields) hlead

theorem foldlM_kindFields {members : List (String × Json)} {r s : kindFields.Draft}
    (h : (Doc.ofMembers members).foldlM (leadFields.visit .json) r = .ok s) :
    (Doc.ofMembers members).foldlM (kindFields.visit .json) r = .ok s := by
  induction members generalizing r with
  | nil => exact h
  | cons m members ih =>
    obtain ⟨t, ht, h⟩ := foldlM_cons_ok h
    rw [Doc.ofMembers, foldlM_of_ok (visit_kindFields.1 ht)]
    exact ih h

theorem build_leadFields {draft : kindFields.Draft} {g : Option Sharing → Option String → NpuConfig}
    (h : leadFields.build draft = .ok g) :
    ∃ apiVersion kind, kindFields.build draft = .ok (apiVersion, kind) ∧ g = NpuConfig.mk apiVersion kind := by
  obtain ⟨⟨⟨⟩, apiVersion⟩, kind⟩ := draft
  cases apiVersion with
  | none => cases h
  | some apiVersion =>
    cases kind with
    | none => cases h
    | some kind => exact ⟨apiVersion, kind, rfl, (Except.ok.inj h).symm⟩

theorem kind_of_members {members : List (String × Json)} {c : NpuConfig}
    (h : Decoder.record "NpuConfig" fields .json (Doc.ofJson (.obj members)) = .ok c) :
    Decoder.record "TypeMeta" kindFields .json (Doc.ofJson (.obj members)) = .ok (c.apiVersion, c.kind) := by
  obtain ⟨draft, hread, hbuild⟩ := reads_iff.1 h
  have hlead := foldlM_kindFields (foldlM_seq_fst (foldlM_seq_fst hread))
  obtain ⟨partly, template, hpartly, -, rfl⟩ := build_seq hbuild
  obtain ⟨lead, sharing, hbuilt, -, rfl⟩ := build_seq hpartly
  obtain ⟨apiVersion, kind, hkind, rfl⟩ := build_leadFields hbuilt
  exact reads_iff.2 ⟨draft.1.1, hlead, hkind⟩

theorem kind_of_items {items : List Json} {c : NpuConfig} {kind : String × String}
    (hc : Decoder.record "NpuConfig" fields .json (Doc.ofJson (.arr items)) = .ok c)
    (hkind : Decoder.record "TypeMeta" kindFields .json (Doc.ofJson (.arr items)) = .ok kind) :
    kind = (c.apiVersion, c.kind) := by
  match items with
  | [] => cases hc
  | [v] =>
    cases v with
    | str v => cases hc
    | _ => cases hc
  | v :: k :: rest =>
    cases v with
    | str v =>
      cases k with
      | str k =>
        cases rest with
        | nil =>
          cases hc
          cases hkind
          rfl
        | cons j js => cases hkind
      | _ => cases hkind
    | _ => cases hkind

theorem isOwn_of_ofRaw {raw : Json} {c : NpuConfig} (h : ofRaw raw = .ok c) : c.IsOwn := by
  unfold ofRaw at h
  split at h
  · cases h
  · rename_i apiVersion kind hkind
    split at h
    · cases h
    · rename_i hown
      split at h
      · cases h
      · rename_i c' hc
        cases h
        have hsame : (apiVersion, kind) = (c.apiVersion, c.kind) := by
          cases raw with
          | obj members => exact Except.ok.inj (hkind.symm.trans (kind_of_members hc))
          | arr items => exact kind_of_items hc hkind
          | _ => cases hc
        obtain ⟨rfl, rfl⟩ := Prod.mk.inj hsame
        rw [not_or, not_not, not_not] at hown
        exact hown

end NpuConfig

end Wire

section Sharing

variable {s : Sharing} {c : NpuConfig}

def SharingStrategy.other : SharingStrategy → SharingStrategy
  | timeSlicing => spacePartitioning
  | spacePartitioning => timeSlicing

def Sharing.Has (s : Sharing) : SharingStrategy → Prop
  | .timeSlicing => s.timeSlice.isSome = true
  | .spacePartitioning => s.partitionCount.isSome = true

def Sharing.IsInconsistent (s : Sharing) : Prop :=
  s.Has s.strategy.other ∨ s.strategy = .spacePartitioning ∧ ∃ n, s.partitionCount = some n ∧ n < 0

/-- Whether all that one configuration gives stands in another. -/
structure NpuConfig.Keeps (c d : NpuConfig) : Prop where
  apiVersion : d.apiVersion = c.apiVersion
  kind : d.kind = c.kind
  template : d.template = c.template
  strategy : ∀ s, c.sharing = some s → ∃ t, d.sharing = some t ∧ t.strategy = s.strategy ∧
    (∀ interval, s.timeSlice = some interval → t.timeSlice = some interval) ∧
    ∀ n, s.partitionCount = some n → t.partitionCount = some n

theorem Sharing.has_normalize (s : Sharing) : s.normalize.Has s.normalize.strategy := by
  obtain ⟨strategy, timeSlice, partitionCount⟩ := s
  cases strategy <;> rfl

theorem NpuConfig.exists_sharing_normalize (c : NpuConfig) :
    ∃ s, c.normalize.sharing = some s ∧ s.Has s.strategy :=
  ⟨_, rfl, Sharing.has_normalize (c.sharing.getD ⟨.timeSlicing, none, none⟩)⟩

theorem Sharing.normalize_normalize (s : Sharing) : s.normalize.normalize = s.normalize := by
  obtain ⟨strategy, timeSlice, partitionCount⟩ := s
  cases strategy <;> rfl

theorem Sharing.strategy_normalize (s : Sharing) : s.normalize.strategy = s.strategy := by
  obtain ⟨strategy, timeSlice, partitionCount⟩ := s
  cases strategy <;> rfl

theorem Sharing.timeSlice_normalize {interval : TimeSlice} (h : s.timeSlice = some interval) :
    s.normalize.timeSlice = some interval := by
  unfold normalize
  split
  · simp [h]
  · exact h

theorem Sharing.partitionCount_normalize {n : Int32} (h : s.partitionCount = some n) :
    s.normalize.partitionCount = some n := by
  unfold normalize
  split
  · exact h
  · simp [h]

theorem NpuConfig.normalize_normalize (c : NpuConfig) : c.normalize.normalize = c.normalize := by
  obtain ⟨apiVersion, kind, sharing, template⟩ := c
  have hsharing := Sharing.normalize_normalize (sharing.getD ⟨.timeSlicing, none, none⟩)
  simp only [normalize, Option.getD_some, hsharing]

theorem NpuConfig.keeps_normalize (c : NpuConfig) : c.Keeps c.normalize where
  apiVersion := rfl
  kind := rfl
  template := rfl
  strategy := by
    intro s hs
    refine ⟨s.normalize, ?_, s.strategy_normalize, ?_, ?_⟩
    · rw [normalize, hs]
      rfl
    · exact fun _ => Sharing.timeSlice_normalize
    · exact fun _ => Sharing.partitionCount_normalize

theorem Sharing.validate_normalize_ok_iff : s.normalize.validate = .ok () ↔ ¬ s.IsInconsistent := by
  obtain ⟨strategy, timeSlice, partitionCount⟩ := s
  cases strategy with
  | timeSlicing =>
    cases partitionCount <;>
      simp [Sharing.normalize, Sharing.validate, IsInconsistent, Has, SharingStrategy.other]
  | spacePartitioning =>
    cases timeSlice with
    | some interval => simp [Sharing.normalize, Sharing.validate, IsInconsistent, Has, SharingStrategy.other]
    | none =>
      cases partitionCount with
      | none => simp [Sharing.normalize, Sharing.validate, IsInconsistent, Has, SharingStrategy.other]
      | some n =>
        by_cases hn : n < 0 <;>
          simp [Sharing.normalize, Sharing.validate, IsInconsistent, Has, SharingStrategy.other, hn]

theorem NpuConfig.validate_normalize_ok_iff :
    c.normalize.validate = .ok () ↔ ¬ ∃ s, c.sharing = some s ∧ s.IsInconsistent := by
  have hshared : c.normalize.validate = (c.sharing.getD ⟨.timeSlicing, none, none⟩).normalize.validate := rfl
  rw [hshared, Sharing.validate_normalize_ok_iff]
  cases c.sharing with
  | none => simp [Sharing.IsInconsistent, Sharing.Has, SharingStrategy.other]
  | some s => simp

end Sharing

section Environment

variable {engine : Engine} {deviceId : String} {lead name rest value : String} {s : Sharing}

def gives (variableName entry : String) : Bool := (variableName ++ "=").toList.isPrefixOf entry.toList

def strategyVariable (deviceId : String) : String :=
  "NPU_DEVICE_" ++ SliceId.suffix deviceId ++ "_SHARING_STRATEGY"

def parameterVariable (deviceId : String) : SharingStrategy → String
  | .timeSlicing => "NPU_DEVICE_" ++ SliceId.suffix deviceId ++ "_TIMESLICE_INTERVAL"
  | .spacePartitioning => "NPU_DEVICE_" ++ SliceId.suffix deviceId ++ "_PARTITION_COUNT"

def givesParameter (deviceId entry : String) : Bool :=
  gives (parameterVariable deviceId .timeSlicing) entry ||
    gives (parameterVariable deviceId .spacePartitioning) entry

def Sharing.parameterValue? (s : Sharing) : Option String :=
  match s.strategy with
  | .timeSlicing => s.timeSlice.map TimeSlice.name
  | .spacePartitioning => s.partitionCount.map fun n => Text.decimalInt n.toInt

theorem gives_iff : gives name rest = true ↔ ∃ value, rest = name ++ "=" ++ value := by
  rw [gives, List.isPrefixOf_iff_prefix]
  constructor
  · rintro ⟨value, hvalue⟩
    refine ⟨String.ofList value, String.toList_inj.1 ?_⟩
    rw [String.toList_append, String.toList_ofList, hvalue]
  · rintro ⟨value, rfl⟩
    exact ⟨value.toList, (String.toList_append ..).symm⟩

theorem gives_self (name value : String) : gives name (name ++ "=" ++ value) = true :=
  gives_iff.2 ⟨value, rfl⟩

theorem gives_append :
    gives (lead ++ name) (lead ++ rest ++ "=" ++ value) = gives name (rest ++ "=" ++ value) := by
  rw [Bool.eq_iff_iff, gives_iff, gives_iff]
  constructor
  · rintro ⟨value', hvalue⟩
    refine ⟨value', String.toList_inj.1 ?_⟩
    have hlist := congrArg String.toList hvalue
    simpa only [String.toList_append, List.append_assoc, List.append_cancel_left_eq] using hlist
  · rintro ⟨value', hvalue⟩
    refine ⟨value', ?_⟩
    calc lead ++ rest ++ "=" ++ value = lead ++ (rest ++ "=" ++ value) := by simp only [String.append_assoc]
      _ = lead ++ (name ++ "=" ++ value') := by rw [hvalue]
      _ = lead ++ name ++ "=" ++ value' := by simp only [String.append_assoc]

theorem head_of_mem_access {entry : String}
    (h : entry ∈ ["ASCEND_VISIBLE_DEVICES=" ++ visibleDevice deviceId] ++ templateSetting engine deviceId) :
    entry.toList.head? = some 'A' := by
  rcases List.mem_append.1 h with h | h
  · rw [List.mem_singleton.1 h, String.toList_append]
    rfl
  · unfold templateSetting at h
    split at h
    · split at h
      · split at h
        · cases h
        · rw [List.mem_singleton.1 h, String.toList_append]
          rfl
      · cases h
    · cases h

theorem not_gives_of_head {entry : String} (h : entry.toList.head? = some 'A') :
    gives ("NPU_DEVICE_" ++ name) entry = false := by
  rw [Bool.eq_false_iff]
  intro hgives
  obtain ⟨value, rfl⟩ := gives_iff.1 hgives
  simp at h

theorem gives_strategy_parameter (strategy : SharingStrategy) :
    gives (strategyVariable deviceId) (parameterVariable deviceId strategy ++ "=" ++ value) = false := by
  cases strategy with
  | timeSlicing =>
    rw [strategyVariable, parameterVariable, gives_append]
    simp only [gives, String.toList_append]
    rfl
  | spacePartitioning =>
    rw [strategyVariable, parameterVariable, gives_append]
    simp only [gives, String.toList_append]
    rfl

theorem givesParameter_strategy :
    givesParameter deviceId (strategyVariable deviceId ++ "=" ++ value) = false := by
  rw [givesParameter, parameterVariable, parameterVariable, strategyVariable, gives_append, gives_append]
  simp only [gives, String.toList_append]
  rfl

theorem givesParameter_parameter (strategy : SharingStrategy) :
    givesParameter deviceId (parameterVariable deviceId strategy ++ "=" ++ value) = true := by
  cases strategy with
  | timeSlicing => rw [givesParameter, gives_self, Bool.true_or]
  | spacePartitioning => rw [givesParameter, gives_self, Bool.or_true]

theorem sharingSettings_of_has (deviceId : String) (h : s.Has s.strategy) :
    ∃ value, s.parameterValue? = some value ∧ sharingSettings deviceId s = [strategyVariable deviceId ++ "=" ++ s.strategy.name,
      parameterVariable deviceId s.strategy ++ "=" ++ value] := by
  obtain ⟨strategy, timeSlice, partitionCount⟩ := s
  cases strategy with
  | timeSlicing =>
    obtain ⟨interval, rfl⟩ := Option.isSome_iff_exists.1 h
    refine ⟨_, rfl, ?_⟩
    simp [sharingSettings, strategyVariable, parameterVariable, String.append_assoc]
  | spacePartitioning =>
    obtain ⟨n, rfl⟩ := Option.isSome_iff_exists.1 h
    refine ⟨_, rfl, ?_⟩
    simp [sharingSettings, strategyVariable, parameterVariable, String.append_assoc]

/-- A device is given its strategy once, and one parameter, which is that of the strategy. -/
structure GivesStrategyOnce (deviceId : String) (s : Sharing) (env : List String) : Prop where
  strategy : env.filter (gives (strategyVariable deviceId)) =
    [strategyVariable deviceId ++ "=" ++ s.strategy.name]
  parameter : ∃ value, s.parameterValue? = some value ∧ env.filter (givesParameter deviceId) =
    [parameterVariable deviceId s.strategy ++ "=" ++ value]

theorem deviceEdits_of_has (engine : Engine) (deviceId : String) {c : NpuConfig}
    (hs : c.sharing = some s) (h : s.Has s.strategy) : ∃ value, s.parameterValue? = some value ∧
      deviceEdits engine deviceId c = .ofEnv (["ASCEND_VISIBLE_DEVICES=" ++ visibleDevice deviceId] ++
        templateSetting engine deviceId ++ [strategyVariable deviceId ++ "=" ++ s.strategy.name,
          parameterVariable deviceId s.strategy ++ "=" ++ value]) := by
  obtain ⟨value, hvalue, hsettings⟩ := sharingSettings_of_has deviceId h
  refine ⟨value, hvalue, ?_⟩
  rw [← hsettings, deviceEdits, hs]
  rfl

theorem givesStrategyOnce_deviceEdits {c : NpuConfig} (hs : c.sharing = some s) (h : s.Has s.strategy) :
    GivesStrategyOnce deviceId s (deviceEdits engine deviceId c).env := by
  obtain ⟨value, hvalue, hedits⟩ := deviceEdits_of_has engine deviceId hs h
  rw [hedits, ContainerEdits.ofEnv]
  generalize haccess : ["ASCEND_VISIBLE_DEVICES=" ++ visibleDevice deviceId] ++
    templateSetting engine deviceId = access
  have hhead : ∀ entry ∈ access, entry.toList.head? = some 'A' := by
    intro entry hentry
    exact head_of_mem_access (haccess ▸ hentry)
  have hnone : ∀ {p : String → Bool}, (∀ entry, entry.toList.head? = some 'A' → p entry = false) →
      access.filter p = [] := by
    intro p hp
    refine List.filter_eq_nil_iff.2 fun entry hentry => ?_
    rw [hp entry (hhead entry hentry)]
    exact Bool.false_ne_true
  constructor
  · have haccess' : access.filter (gives (strategyVariable deviceId)) = [] := by
      refine hnone fun entry hentry => ?_
      rw [strategyVariable, String.append_assoc]
      exact not_gives_of_head hentry
    simp [haccess', gives_self, gives_strategy_parameter]
  · have haccess' : access.filter (givesParameter deviceId) = [] := by
      refine hnone fun entry hentry => ?_
      simp only [givesParameter, parameterVariable, String.append_assoc, not_gives_of_head hentry, Bool.or_self]
    refine ⟨value, hvalue, ?_⟩
    simp [haccess', givesParameter_strategy, givesParameter_parameter]

end Environment

/-- Configurations of this agent's kind are read back, and nothing else is read as one. Of any configuration,
filling in what is implied is done once and keeps what is given, and the check then fails exactly for what
contradicts the strategy. Whether or not it fails, every device is given one strategy and one parameter. -/
theorem NpuConfig.laws :
    (∀ c : NpuConfig, c.IsOwn → ofRaw c.toRaw.json = .ok c) ∧
    (∀ raw c, ofRaw raw = .ok c → c.IsOwn) ∧
    ∀ c : NpuConfig,
      c.normalize.normalize = c.normalize ∧ c.Keeps c.normalize ∧
      ((∃ e, c.normalize.validate = .error e) ↔ ∃ s, c.sharing = some s ∧ s.IsInconsistent) ∧
      ∃ s, c.normalize.sharing = some s ∧ s.Has s.strategy ∧ ∀ engine deviceId,
        GivesStrategyOnce deviceId s (deviceEdits engine deviceId c.normalize).env := by
  refine ⟨fun c hc => ofRaw_toRaw hc, fun raw c hc => isOwn_of_ofRaw hc, fun c => ?_⟩
  refine ⟨c.normalize_normalize, c.keeps_normalize, ?_, ?_⟩
  · have hpasses := validate_normalize_ok_iff (c := c)
    cases hresult : c.normalize.validate with
    | ok u =>
      have hconsistent := hpasses.1 hresult
      exact ⟨nofun, fun h => absurd h hconsistent⟩
    | error e =>
      have hnot : ¬ c.normalize.validate = .ok () := by
        rw [hresult]
        exact nofun
      exact ⟨fun _ => not_not.1 fun h => hnot (hpasses.2 h), fun _ => ⟨e, rfl⟩⟩
  · obtain ⟨s, hs, hhas⟩ := c.exists_sharing_normalize
    exact ⟨s, hs, hhas, fun _ _ => givesStrategyOnce_deviceEdits hs hhas⟩

def partitionedConfig : NpuConfig :=
  ⟨NpuConfig.ownApiVersion, NpuConfig.ownKind, some ⟨.spacePartitioning, none, none⟩, some "vir02"⟩

theorem NpuConfig.laws_partitioned : partitionedConfig.IsOwn ∧
    ofRaw partitionedConfig.toRaw.json = .ok partitionedConfig ∧
    (¬ ∃ e, partitionedConfig.normalize.validate = .error e) ∧
    GivesStrategyOnce "npu-0-1" ⟨.spacePartitioning, none, some 1⟩
      (deviceEdits (.new .standard .all) "npu-0-1" partitionedConfig.normalize).env := by
  have hown : partitionedConfig.IsOwn := ⟨rfl, rfl⟩
  obtain ⟨hread, -, hlaws⟩ := laws
  obtain ⟨-, -, hfails, s, hs, -, hgives⟩ := hlaws partitionedConfig
  obtain rfl : ⟨.spacePartitioning, none, some 1⟩ = s := Option.some.inj hs
  refine ⟨hown, hread _ hown, ?_, hgives _ _⟩
  rw [hfails]
  rintro ⟨s, hs, hinconsistent⟩
  obtain rfl : ⟨.spacePartitioning, none, none⟩ = s := Option.some.inj hs
  simp [Sharing.IsInconsistent, Sharing.Has, SharingStrategy.other] at hinconsistent

end SliceAgent
