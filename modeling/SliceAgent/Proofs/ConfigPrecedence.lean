import SliceAgent.Claim.Precedence

/-!
The configurations of a claim in the order of their precedence: what applies to everything, then what
the device classes give, then what the claim gives, each as it stands in the claim. A request gets the
last of them that applies to it, and the template of the last that names one which there is
(`resolveConfigs_precedence`).
-/
namespace SliceAgent

section Last

variable {α : Type} {p : α → Prop} {as bs : List α} {a : α}

def IsLast (p : α → Prop) (as : List α) (a : α) : Prop :=
  ∃ before after, as = before ++ a :: after ∧ p a ∧ ∀ b ∈ after, ¬ p b

theorem IsLast.mem (h : IsLast p as a) : a ∈ as := by
  obtain ⟨before, after, rfl, _, _⟩ := h
  exact List.mem_append_right _ List.mem_cons_self

theorem IsLast.mem_right (h : IsLast p (as ++ bs) a) (hb : ∃ b ∈ bs, p b) : a ∈ bs := by
  obtain ⟨before, after, happend, _, hafter⟩ := h
  obtain ⟨b, hb, hpb⟩ := hb
  rcases List.append_eq_append_iff.1 happend with ⟨between, _, rfl⟩ | ⟨between, _, hrest⟩
  · exact List.mem_append_right _ List.mem_cons_self
  · cases between with
    | nil =>
      rw [List.nil_append] at hrest
      exact hrest ▸ List.mem_cons_self
    -- the later part comes after the element, where nothing has the property
    | cons c between =>
      obtain ⟨_, rfl⟩ := List.cons.inj hrest
      exact absurd hpb (hafter b (List.mem_append_right _ hb))

theorem find?_reverse_eq_some_iff {q : α → Bool} :
    as.reverse.find? q = some a ↔ IsLast (q · = true) as a := by
  rw [List.find?_eq_some_iff_append]
  constructor
  · rintro ⟨hq, after, before, hrev, hafter⟩
    refine ⟨before.reverse, after.reverse, ?_, hq, fun b hb => ?_⟩
    · rw [← List.reverse_reverse as, hrev]
      simp
    · simpa using hafter b (List.mem_reverse.1 hb)
  · rintro ⟨before, after, rfl, hq, hafter⟩
    refine ⟨hq, after.reverse, before.reverse, by simp, fun b hb => ?_⟩
    simpa using hafter b (List.mem_reverse.1 hb)

theorem findSome?_filter {β : Type} (q : α → Bool) (f : α → Option β) (as : List α) :
    (as.filter q).findSome? f = (as.find? fun a => q a && (f a).isSome).bind f := by
  induction as with
  | nil => rfl
  | cons a as ih =>
    cases hq : q a with
    | false => simp [hq, ih]
    | true =>
      cases hf : f a with
      | none => simp [hq, hf, ih]
      | some b => simp [hq, hf]

end Last

namespace ConfigEntry

variable {driver : String} {sources : ConfigSources} {c : ConfigEntry} {cs : List ConfigEntry}
  {key : Nat} {ranked : List RankedConfig}

/-- Whether an entry counts: one of a class always, one of the claim only where these count as well. -/
def Counts (sources : ConfigSources) (c : ConfigEntry) : Prop :=
  c.source = fromClass ∨ c.source = fromClaim ∧ sources = .classAndClaim

/-- Whether an entry is of no use: it has no parameters at all, or such for the driver that are no
configuration. -/
def Unusable (driver : String) (c : ConfigEntry) : Prop :=
  c.parameters = none ∨
    ∃ p, c.parameters = some p ∧ p.driver = driver ∧ ∃ e, NpuConfig.ofRaw p.parameters.json = .error e

def read? (driver : String) (c : ConfigEntry) : Option (List String × NpuConfig) :=
  c.parameters.bind fun p =>
    if p.driver = driver then
      (NpuConfig.ofRaw p.parameters.json).toOption.map fun config => (c.requests, config)
    else none

def ofClaim (sources : ConfigSources) (cs : List ConfigEntry) : List ConfigEntry :=
  match sources with
  | .classOnly => []
  | .classAndClaim => cs.filter (·.source = fromClaim)

theorem candidates_eq :
    candidates sources cs = cs.filter (·.source = fromClass) ++ ofClaim sources cs := by
  cases sources with
  | classOnly => exact (List.append_nil _).symm
  | classAndClaim => rfl

theorem mem_candidates : c ∈ candidates sources cs ↔ c ∈ cs ∧ c.Counts sources := by
  cases sources <;> simp [candidates, Counts, and_or_left]

theorem checkSources_error_iff : (∃ e, checkSources cs = .error e) ↔
    ∃ c ∈ cs, c.source ≠ fromClass ∧ c.source ≠ fromClaim := by
  induction cs with
  | nil => simp [checkSources]
  | cons c cs ih =>
    simp only [List.mem_cons, exists_eq_or_imp]
    rw [checkSources]
    by_cases hc : c.source = fromClass ∨ c.source = fromClaim
    · rw [if_pos hc, ih, or_iff_right (fun hne => hc.elim hne.1 hne.2)]
    · rw [if_neg hc]
      exact iff_of_true ⟨_, rfl⟩ (.inl (not_or.1 hc))

theorem rank_cons_cases (driver : String) (key : Nat) (c : ConfigEntry) (cs : List ConfigEntry) :
    (c.Unusable driver ∧ ∃ e, rank driver key (c :: cs) = .error e) ∨
    (¬ c.Unusable driver ∧ c.read? driver = none ∧ rank driver key (c :: cs) = rank driver key cs) ∨
    ∃ config, ¬ c.Unusable driver ∧ c.read? driver = some (c.requests, config) ∧
      rank driver key (c :: cs) =
        (rank driver (key + 1) cs).map (⟨key, c.requests, config⟩ :: ·) := by
  unfold Unusable read?
  rw [rank]
  cases hp : c.parameters with
  | none => exact .inl ⟨.inl rfl, _, rfl⟩
  | some p =>
    by_cases hd : p.driver = driver
    · simp only [Option.bind_some, hd, if_true, ne_eq, not_true_eq_false, if_false]
      cases hraw : NpuConfig.ofRaw p.parameters.json with
      | error e => exact .inl ⟨.inr ⟨p, rfl, hd, e, hraw⟩, _, rfl⟩
      | ok config =>
        refine .inr (.inr ⟨config, ?_, rfl, ?_⟩)
        · rintro (hnone | ⟨q, hq, _, e, he⟩)
          · cases hnone
          · cases hq
            cases hraw.symm.trans he
        · cases rank driver (key + 1) cs <;> rfl
    · simp only [Option.bind_some, hd, if_false, ne_eq, not_false_eq_true, if_true, and_true]
      refine .inr (.inl ?_)
      rintro (hnone | ⟨q, hq, hown, _⟩)
      · cases hnone
      · cases hq
        exact hd hown

theorem rank_error_iff :
    (∃ e, rank driver key cs = .error e) ↔ ∃ c ∈ cs, c.Unusable driver := by
  induction cs generalizing key with
  | nil => simp [rank]
  | cons c cs ih =>
    simp only [List.mem_cons, exists_eq_or_imp]
    rcases rank_cons_cases driver key c cs with ⟨hbad, he⟩ | ⟨hok, _, hrank⟩ | ⟨config, hok, _, hrank⟩
    · exact iff_of_true he (.inl hbad)
    · rw [hrank, ih, or_iff_right hok]
    · have hrest := @ih (key + 1)
      rw [or_iff_right hok, ← hrest, hrank]
      cases rank driver (key + 1) cs <;> simp [Except.map]

theorem rank_ok (h : rank driver key cs = .ok ranked) :
    ranked.map (fun c => (c.requests, c.config)) = cs.filterMap (read? driver) ∧
      ∀ i c, ranked[i]? = some c → c.key = key + i := by
  induction cs generalizing key ranked with
  | nil =>
    cases h
    exact ⟨rfl, fun i c hc => by simp at hc⟩
  | cons c cs ih =>
    rcases rank_cons_cases driver key c cs with ⟨_, e, he⟩ | ⟨_, hread, hrank⟩ | ⟨config, _, hread, hrank⟩
    · cases h.symm.trans he
    · rw [List.filterMap_cons_none hread]
      exact ih (hrank.symm.trans h)
    · rw [hrank] at h
      cases hrest : rank driver (key + 1) cs with
      | error e =>
        rw [hrest] at h
        cases h
      | ok rest =>
        rw [hrest] at h
        cases h
        obtain ⟨hbodies, hkeys⟩ := ih hrest
        rw [List.filterMap_cons_some hread, List.map_cons, hbodies]
        refine ⟨rfl, fun i d hd => ?_⟩
        cases i with
        | zero =>
          cases hd
          rfl
        | succ i =>
          rw [hkeys i d hd]
          omega

end ConfigEntry

section Precedence

variable {driver : String} {sources : ConfigSources} {entries : List ConfigEntry}
  {configs : List RankedConfig} {request : String} {catalog : Catalog} {t : Template}

def RankedConfig.Names (catalog : Catalog) (c : RankedConfig) (t : Template) : Prop :=
  ∃ name, c.config.templateName = some name ∧ catalog.find? name = some t

theorem applicableConfig?_eq_some_iff {c : RankedConfig} :
    applicableConfig? configs request = some c ↔ IsLast (·.appliesTo request = true) configs c :=
  find?_reverse_eq_some_iff

theorem requestedTemplate?_eq_some_iff : requestedTemplate? configs request catalog = some t ↔
    ∃ c, IsLast (fun c => c.appliesTo request = true ∧ ∃ u, c.Names catalog u) configs c ∧
      c.Names catalog t := by
  have hnames : ∀ (c : RankedConfig) u,
      (c.config.templateName.bind catalog.find? = some u ↔ c.Names catalog u) := fun c u =>
    Option.bind_eq_some_iff
  rw [requestedTemplate?, findSome?_filter, Option.bind_eq_some_iff]
  simp only [find?_reverse_eq_some_iff, Bool.and_eq_true, Option.isSome_iff_exists, hnames]

theorem resolveConfigs_ok (h : resolveConfigs driver sources entries = .ok configs) :
    ∃ ranked, ConfigEntry.rank driver 1 (ConfigEntry.candidates sources entries) = .ok ranked ∧
      configs = ⟨0, [], .standard⟩ :: ranked := by
  unfold resolveConfigs at h
  split at h
  · cases h
  · split at h
    · cases h
    · rename_i ranked hranked
      cases h
      exact ⟨ranked, hranked, rfl⟩

/-- The configurations for a driver, in the order of precedence: what applies to everything, then those of
the classes, then those of the claim, each at the place that it names. -/
structure InPrecedence (driver : String) (sources : ConfigSources) (entries : List ConfigEntry)
    (ofClass ofClaim configs : List RankedConfig) : Prop where
  order : configs = ⟨0, [], .standard⟩ :: (ofClass ++ ofClaim)
  fromClass : ofClass.map (fun c => (c.requests, c.config)) =
    (entries.filter (·.source = ConfigEntry.fromClass)).filterMap (ConfigEntry.read? driver)
  fromClaim : ofClaim.map (fun c => (c.requests, c.config)) =
    (ConfigEntry.ofClaim sources entries).filterMap (ConfigEntry.read? driver)
  places : ∀ (i : Nat) (c : RankedConfig), configs[i]? = some c → c.key = i

theorem exists_inPrecedence (h : resolveConfigs driver sources entries = .ok configs) :
    ∃ ofClass ofClaim, InPrecedence driver sources entries ofClass ofClaim configs := by
  obtain ⟨ranked, hrank, rfl⟩ := resolveConfigs_ok h
  obtain ⟨hbodies, hkeys⟩ := ConfigEntry.rank_ok hrank
  rw [ConfigEntry.candidates_eq, List.filterMap_append] at hbodies
  obtain ⟨ofClass, ofClaim, rfl, hclass, hclaim⟩ := List.map_eq_append_iff.1 hbodies
  refine ⟨ofClass, ofClaim, rfl, hclass, hclaim, fun i c hc => ?_⟩
  cases i with
  | zero =>
    cases hc
    rfl
  | succ i =>
    rw [hkeys i c hc, Nat.add_comm]

namespace InPrecedence

variable {ofClass ofClaim : List RankedConfig} {c d : RankedConfig}

theorem at_key (h : InPrecedence driver sources entries ofClass ofClaim configs) (hc : c ∈ configs) :
    configs[c.key]? = some c := by
  obtain ⟨i, hi⟩ := List.mem_iff_getElem?.1 hc
  rwa [h.places i c hi]

theorem exists_applicable (h : InPrecedence driver sources entries ofClass ofClaim configs)
    (request : String) : ∃ c, applicableConfig? configs request = some c := by
  refine Option.isSome_iff_exists.1 ?_
  rw [applicableConfig?, List.find?_isSome, h.order]
  exact ⟨⟨0, [], .standard⟩, List.mem_reverse.2 List.mem_cons_self, rfl⟩

theorem class_below_claim (h : InPrecedence driver sources entries ofClass ofClaim configs)
    (hd : d ∈ ofClass) (hc : c ∈ ofClaim) : d.key < c.key := by
  obtain ⟨i, hi⟩ := List.mem_iff_getElem?.1 hd
  obtain ⟨j, hj⟩ := List.mem_iff_getElem?.1 hc
  have hlt : i < ofClass.length := (List.getElem?_eq_some_iff.1 hi).1
  have hdkey : d.key = i + 1 := by
    refine h.places (i + 1) d ?_
    rw [h.order, List.getElem?_cons_succ, List.getElem?_append_left hlt, hi]
  have hckey : c.key = ofClass.length + j + 1 := by
    refine h.places (ofClass.length + j + 1) c ?_
    rw [h.order, List.getElem?_cons_succ, List.getElem?_append_right (Nat.le_add_right _ _),
      Nat.add_sub_cancel_left, hj]
  omega

end InPrecedence

theorem resolveConfigs_error_iff : (∃ e, resolveConfigs driver sources entries = .error e) ↔
    (∃ c ∈ entries, c.source ≠ ConfigEntry.fromClass ∧ c.source ≠ ConfigEntry.fromClaim) ∨
      ∃ c ∈ entries, c.Counts sources ∧ c.Unusable driver := by
  have hcandidates : (∃ e, ConfigEntry.rank driver 1 (ConfigEntry.candidates sources entries) = .error e) ↔
      ∃ c ∈ entries, c.Counts sources ∧ c.Unusable driver := by
    rw [ConfigEntry.rank_error_iff]
    simp only [ConfigEntry.mem_candidates, and_assoc]
  rw [← hcandidates, ← ConfigEntry.checkSources_error_iff, resolveConfigs]
  cases ConfigEntry.checkSources entries with
  | error e => simp
  | ok u => cases ConfigEntry.rank driver 1 (ConfigEntry.candidates sources entries) <;> simp

/-- Resolving fails if an entry has no known source, or one that counts is of no use, and only then. What
is resolved stands in the order of precedence. A request gets the last configuration that applies to it,
which is one of the claim as soon as one of these does, and the template of the last that applies to it and
names one of the catalog. -/
theorem resolveConfigs_precedence (driver : String) (sources : ConfigSources)
    (entries : List ConfigEntry) :
    ((∃ e, resolveConfigs driver sources entries = .error e) ↔
      (∃ c ∈ entries, c.source ≠ ConfigEntry.fromClass ∧ c.source ≠ ConfigEntry.fromClaim) ∨
        ∃ c ∈ entries, c.Counts sources ∧ c.Unusable driver) ∧
    ∀ configs, resolveConfigs driver sources entries = .ok configs →
      ∃ ofClass ofClaim, InPrecedence driver sources entries ofClass ofClaim configs ∧
        ∀ request,
          (∃ c, applicableConfig? configs request = some c ∧
            IsLast (·.appliesTo request = true) configs c ∧ configs[c.key]? = some c ∧
            ((∃ d ∈ ofClaim, d.appliesTo request = true) →
              c ∈ ofClaim ∧ ∀ d ∈ ofClass, d.key < c.key)) ∧
          ∀ catalog t, requestedTemplate? configs request catalog = some t ↔
            ∃ c, IsLast (fun c => c.appliesTo request = true ∧ ∃ u, c.Names catalog u) configs c ∧
              c.Names catalog t := by
  refine ⟨resolveConfigs_error_iff, fun configs hresolved => ?_⟩
  obtain ⟨ofClass, ofClaim, h⟩ := exists_inPrecedence hresolved
  refine ⟨ofClass, ofClaim, h, fun request => ⟨?_, fun catalog t => requestedTemplate?_eq_some_iff⟩⟩
  obtain ⟨c, hc⟩ := h.exists_applicable request
  have hlast := applicableConfig?_eq_some_iff.1 hc
  refine ⟨c, hc, hlast, h.at_key hlast.mem, fun hcovers => ?_⟩
  have hclaim : c ∈ ofClaim := by
    rw [h.order, ← List.cons_append] at hlast
    exact hlast.mem_right hcovers
  exact ⟨hclaim, fun d hd => h.class_below_claim hd hclaim⟩

end Precedence

def sampleEntries : List ConfigEntry :=
  [⟨"FromClaim", ["npu"], some ⟨"npu.example.com", (NpuConfig.ofTemplate "vir01").toRaw⟩⟩,
    ⟨"FromClass", [], some ⟨"npu.example.com", (NpuConfig.ofTemplate "vir02").toRaw⟩⟩]

theorem resolveConfigs_precedence_sample :
    ∃ configs, resolveConfigs "npu.example.com" .classAndClaim sampleEntries = .ok configs ∧
      ∃ c, applicableConfig? configs "npu" = some c ∧ c.key = 2 ∧
        c.config.templateName = some "vir01" := by
  cases hconfigs : resolveConfigs "npu.example.com" .classAndClaim sampleEntries with
  | error e =>
    have hok : (resolveConfigs "npu.example.com" .classAndClaim sampleEntries).isOk = true := by
      decide +kernel
    rw [hconfigs] at hok
    cases hok
  | ok configs =>
    obtain ⟨ofClass, ofClaim, h, hall⟩ :=
      (resolveConfigs_precedence "npu.example.com" .classAndClaim sampleEntries).2 configs hconfigs
    obtain ⟨⟨c, hc, _, _, hclaim⟩, _⟩ := hall "npu"
    have hclass : ofClass.map (fun c => (c.requests, c.config)) =
        [([], NpuConfig.ofTemplate "vir02")] := h.fromClass.trans (by decide +kernel)
    have hone : ofClaim.map (fun c => (c.requests, c.config)) =
        [(["npu"], NpuConfig.ofTemplate "vir01")] := h.fromClaim.trans (by decide +kernel)
    obtain ⟨low, rfl, _⟩ := List.map_eq_singleton_iff.1 hclass
    obtain ⟨high, rfl, hbody⟩ := List.map_eq_singleton_iff.1 hone
    obtain ⟨hrequests, hconfig⟩ := Prod.mk.inj hbody
    obtain ⟨hmem, _⟩ := hclaim ⟨high, List.mem_cons_self, by simp [RankedConfig.appliesTo, hrequests]⟩
    obtain rfl := List.mem_singleton.1 hmem
    refine ⟨configs, rfl, c, hc, h.places 2 c ?_, ?_⟩
    · rw [h.order]
      rfl
    · rw [hconfig]
      rfl

end SliceAgent
