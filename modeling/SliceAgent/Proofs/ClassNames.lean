import SliceAgent.Proofs.OfferedShapes
import SliceAgent.Proofs.PublishedClasses

/-!
The names of the classes that a node publishes. The name of a class tells the model in small letters and
one amount of the template, while models and shapes are told apart by more than that; so two classes can
come under one name, and then overwrite each other (`predefinedClasses_published`).
-/
namespace SliceAgent

section Decimals

variable {p q : String} {x y : Char} {m n : Nat}

theorem decimal_injective (h : Text.decimal m = Text.decimal n) : m = n := by
  have hread := Text.natOfDigits?_decimal m
  rw [h, Text.natOfDigits?_decimal] at hread
  exact (Option.some.inj hread).symm

theorem isDigit_of_mem_decimal {c : Char} (hc : c ∈ (Text.decimal n).toList) : c.isDigit = true := by
  rw [Text.decimal, String.toList_ofList] at hc
  exact isDigit_of_mem_toDigits hc

theorem append_decimal_inj (hx : x.isDigit = false) (hy : y.isDigit = false)
    (h : p ++ String.singleton x ++ Text.decimal m = q ++ String.singleton y ++ Text.decimal n) :
    p = q ∧ x = y ∧ m = n := by
  have hchars := congrArg String.toList h
  simp only [String.toList_append, String.toList_singleton, List.append_assoc,
    List.singleton_append] at hchars
  have hnot : ∀ {c : Char} {k : Nat} {front rest : List Char}, c.isDigit = false →
      (Text.decimal k).toList ≠ front ++ c :: rest := by
    intro c k front rest hc hfront
    have hdigit := isDigit_of_mem_decimal (n := k) (c := c) (by rw [hfront]; simp)
    rw [hc] at hdigit
    cases hdigit
  have hparts : p.toList = q.toList ∧ x :: (Text.decimal m).toList = y :: (Text.decimal n).toList := by
    rcases List.append_eq_append_iff.1 hchars with ⟨between, hq, htail⟩ | ⟨between, hp, htail⟩
    · cases between with
      | nil => exact ⟨(hq.trans (List.append_nil _)).symm, htail⟩
      | cons c between => exact absurd (List.cons.inj htail).2 (hnot hy)
    · cases between with
      | nil => exact ⟨hp.trans (List.append_nil _), htail.symm⟩
      | cons c between => exact absurd (List.cons.inj htail).2 (hnot hx)
  obtain ⟨rfl, hdigits⟩ := List.cons.inj hparts.2
  exact ⟨String.toList_inj.1 hparts.1, rfl, decimal_injective (String.toList_inj.1 hdigits)⟩

end Decimals

inductive ClassSubject where
  | wholeCards (model : String)
  | byMemory (model : String) (t : Template)
  | byCores (model : String) (t : Template)

namespace ClassSubject

variable {driver model model' : String} {cards : List Card} {t u : Template} {x y : ClassSubject}

def toClass (driver : String) : ClassSubject → DeviceClass
  | wholeCards model => .wholeCards driver model
  | byMemory model t => .byMemory driver model t
  | byCores model t => .byCores driver model t

/-- The part of a name that tells the class. -/
def stem : ClassSubject → String
  | wholeCards model => safeModelName model
  | byMemory model t => safeModelName model ++ "-mem" ++ Text.decimal t.memoryGb.toNat
  | byCores model t => safeModelName model ++ "-aicore" ++ Text.decimal t.aiCore.toNat

theorem name_toClass : (x.toClass driver).name = "npu-" ++ x.stem ++ ".example.com" := by
  cases x <;> simp only [toClass, stem, DeviceClass.wholeCards, DeviceClass.byMemory, DeviceClass.byCores,
    DeviceClass.new, String.append_assoc]

theorem name_eq_iff : (x.toClass driver).name = (y.toClass driver).name ↔ x.stem = y.stem := by
  rw [name_toClass, name_toClass, String.append_left_inj, String.append_right_inj]

theorem plain_toClass : (x.toClass driver).spec.Plain := by
  cases x <;> exact DeviceClass.plain_new

theorem memory_mark :
    safeModelName model ++ "-mem" = safeModelName model ++ "-me" ++ String.singleton 'm' := by
  rw [String.append_assoc]
  rfl

theorem cores_mark :
    safeModelName model ++ "-aicore" = safeModelName model ++ "-aicor" ++ String.singleton 'e' := by
  rw [String.append_assoc]
  rfl

theorem stem_byMemory_iff : (byMemory model t).stem = (byMemory model' u).stem ↔
    safeModelName model = safeModelName model' ∧ t.memoryGb = u.memoryGb := by
  constructor
  · intro h
    rw [stem, stem, memory_mark, memory_mark] at h
    obtain ⟨hmodel, -, hmemory⟩ := append_decimal_inj (by decide) (by decide) h
    exact ⟨(String.append_left_inj _).1 hmodel, UInt32.toNat_inj.1 hmemory⟩
  · rintro ⟨hmodel, hmemory⟩
    rw [stem, stem, hmodel, hmemory]

theorem stem_byCores_iff : (byCores model t).stem = (byCores model' u).stem ↔
    safeModelName model = safeModelName model' ∧ t.aiCore = u.aiCore := by
  constructor
  · intro h
    rw [stem, stem, cores_mark, cores_mark] at h
    obtain ⟨hmodel, -, hcore⟩ := append_decimal_inj (by decide) (by decide) h
    exact ⟨(String.append_left_inj _).1 hmodel, UInt32.toNat_inj.1 hcore⟩
  · rintro ⟨hmodel, hcore⟩
    rw [stem, stem, hmodel, hcore]

theorem stem_byMemory_ne_byCores : (byMemory model t).stem ≠ (byCores model' u).stem := by
  intro h
  rw [stem, stem, memory_mark, cores_mark] at h
  obtain ⟨-, hmark, -⟩ := append_decimal_inj (by decide) (by decide) h
  exact absurd hmark (by decide)

def ofCards (cards : List Card) : List ClassSubject :=
  (modelNames cards).map wholeCards ++ (shapes cards).flatMap fun t =>
    (modelNames cards).flatMap fun model => [byMemory model t, byCores model t]

theorem predefinedClasses_eq : predefinedClasses driver cards = (ofCards cards).map (toClass driver) := by
  simp [predefinedClasses, ofCards, List.map_flatMap, toClass, Function.comp_def]

theorem wholeCards_mem : wholeCards model ∈ ofCards cards ↔ model ∈ modelNames cards := by
  simp [ofCards]

theorem byMemory_mem : byMemory model t ∈ ofCards cards ↔ model ∈ modelNames cards ∧ t ∈ shapes cards := by
  simp [ofCards, and_comm]

theorem byCores_mem : byCores model t ∈ ofCards cards ↔ model ∈ modelNames cards ∧ t ∈ shapes cards := by
  simp [ofCards, and_comm]

theorem nodup_ofCards : (ofCards cards).Nodup := by
  have hwhole : ((modelNames cards).map wholeCards).Nodup :=
    nodup_modelNames.map fun _ _ h => wholeCards.inj h
  have hmodels : ∀ t,
      ((modelNames cards).flatMap fun model => [byMemory model t, byCores model t]).Nodup := by
    intro t
    refine List.nodup_flatMap.2 ⟨fun model _ => by simp, nodup_modelNames.imp fun hne x hx hy => hne ?_⟩
    simp only [List.mem_cons, List.not_mem_nil, or_false] at hx hy
    rcases hx with rfl | rfl <;> simpa using hy
  have hshapes : (shapes cards).Nodup := nodup_map_shapes.of_map
  refine List.nodup_append.2 ⟨hwhole, List.nodup_flatMap.2 ⟨fun t _ => hmodels t, ?_⟩, ?_⟩
  · refine hshapes.imp fun hne x hx hy => hne ?_
    obtain ⟨model, -, hx⟩ := List.mem_flatMap.1 hx
    obtain ⟨model', -, hy⟩ := List.mem_flatMap.1 hy
    simp only [List.mem_cons, List.not_mem_nil, or_false] at hx hy
    rcases hx with rfl | rfl <;> simp at hy <;> exact hy.2
  · rintro x hx y hy rfl
    obtain ⟨model, -, rfl⟩ := List.mem_map.1 hx
    simp at hy

/-- Models that the names of classes tell apart, also where a name goes on with an amount. -/
structure ModelsApart (cards : List Card) : Prop where
  models : ∀ model ∈ modelNames cards, ∀ other ∈ modelNames cards,
    safeModelName model = safeModelName other → model = other
  amounts : ∀ model ∈ modelNames cards, ∀ other ∈ modelNames cards, ∀ t ∈ offeredTemplates cards,
    safeModelName model ≠ safeModelName other ++ "-mem" ++ Text.decimal t.memoryGb.toNat ∧
    safeModelName model ≠ safeModelName other ++ "-aicore" ++ Text.decimal t.aiCore.toNat

/-- A relation between subjects that keeps models and kinds of classes apart, and of templates knows as
much as `same`. -/
structure Separates (R : ClassSubject → ClassSubject → Prop) (same : Template → Template → Prop) :
    Prop where
  wholeCards : ∀ {model other}, R (.wholeCards model) (.wholeCards other) ↔ model = other
  byMemory : ∀ {model other t u}, t.memoryGb = u.memoryGb →
    (R (.byMemory model t) (.byMemory other u) ↔ model = other ∧ same t u)
  byCores : ∀ {model other t u}, t.aiCore = u.aiCore →
    (R (.byCores model t) (.byCores other u) ↔ model = other ∧ same t u)
  unlike : ∀ {model other t},
    ¬ R (.wholeCards model) (.byMemory other t) ∧ ¬ R (.wholeCards model) (.byCores other t)

theorem Separates.forall_iff {R : ClassSubject → ClassSubject → Prop} {same : Template → Template → Prop}
    (h : Separates R same) :
    (∀ x ∈ ofCards cards, ∀ y ∈ ofCards cards, x.stem = y.stem → R x y) ↔
      ModelsApart cards ∧ ∀ t ∈ shapes cards, ∀ u ∈ shapes cards,
        t.aiCore = u.aiCore ∨ t.memoryGb = u.memoryGb → same t u := by
  constructor
  · intro hall
    refine ⟨⟨fun model hm other ho hsafe => ?_, fun model hm other ho t ht => ?_⟩, fun t ht u hu heq => ?_⟩
    · exact h.wholeCards.1 (hall _ (wholeCards_mem.2 hm) _ (wholeCards_mem.2 ho) hsafe)
    · obtain ⟨u, hu, hsame⟩ := exists_mem_shapes ht
      obtain ⟨hcore, hmemory⟩ := Capacity.mk.inj hsame
      constructor
      · intro hname
        rw [← hmemory] at hname
        exact h.unlike.1 (hall _ (wholeCards_mem.2 hm) _ (byMemory_mem.2 ⟨ho, hu⟩) hname)
      · intro hname
        rw [← hcore] at hname
        exact h.unlike.2 (hall _ (wholeCards_mem.2 hm) _ (byCores_mem.2 ⟨ho, hu⟩) hname)
    · obtain ⟨model, hm⟩ := exists_model (mem_offered_of_shapes ht)
      rcases heq with hcore | hmemory
      · have hR := hall (.byCores model t) (byCores_mem.2 ⟨hm, ht⟩) (.byCores model u)
          (byCores_mem.2 ⟨hm, hu⟩) (stem_byCores_iff.2 ⟨rfl, hcore⟩)
        exact ((h.byCores hcore).1 hR).2
      · have hR := hall (.byMemory model t) (byMemory_mem.2 ⟨hm, ht⟩) (.byMemory model u)
          (byMemory_mem.2 ⟨hm, hu⟩) (stem_byMemory_iff.2 ⟨rfl, hmemory⟩)
        exact ((h.byMemory hmemory).1 hR).2
  · rintro ⟨hmodels, htemplates⟩ x hx y hy hstem
    cases x with
    | wholeCards model =>
      have hm := wholeCards_mem.1 hx
      cases y with
      | wholeCards other => exact h.wholeCards.2 (hmodels.models _ hm _ (wholeCards_mem.1 hy) hstem)
      | byMemory other t =>
        obtain ⟨ho, ht⟩ := byMemory_mem.1 hy
        exact absurd hstem (hmodels.amounts _ hm _ ho t (mem_offered_of_shapes ht)).1
      | byCores other t =>
        obtain ⟨ho, ht⟩ := byCores_mem.1 hy
        exact absurd hstem (hmodels.amounts _ hm _ ho t (mem_offered_of_shapes ht)).2
    | byMemory model t =>
      obtain ⟨hm, ht⟩ := byMemory_mem.1 hx
      cases y with
      | wholeCards other =>
        have ho := wholeCards_mem.1 hy
        exact absurd hstem.symm (hmodels.amounts _ ho _ hm t (mem_offered_of_shapes ht)).1
      | byMemory other u =>
        obtain ⟨ho, hu⟩ := byMemory_mem.1 hy
        obtain ⟨hsafe, hmemory⟩ := stem_byMemory_iff.1 hstem
        exact (h.byMemory hmemory).2 ⟨hmodels.models _ hm _ ho hsafe, htemplates t ht u hu (.inr hmemory)⟩
      | byCores other u => exact absurd hstem stem_byMemory_ne_byCores
    | byCores model t =>
      obtain ⟨hm, ht⟩ := byCores_mem.1 hx
      cases y with
      | wholeCards other =>
        have ho := wholeCards_mem.1 hy
        exact absurd hstem.symm (hmodels.amounts _ ho _ hm t (mem_offered_of_shapes ht)).2
      | byMemory other u => exact absurd hstem.symm stem_byMemory_ne_byCores
      | byCores other u =>
        obtain ⟨ho, hu⟩ := byCores_mem.1 hy
        obtain ⟨hsafe, hcore⟩ := stem_byCores_iff.1 hstem
        exact (h.byCores hcore).2 ⟨hmodels.models _ hm _ ho hsafe, htemplates t ht u hu (.inl hcore)⟩

theorem separates_eq : Separates Eq Eq where
  wholeCards := by simp
  byMemory _ := by simp
  byCores _ := by simp
  unlike := by simp

section Expressions

theorem conjunction_pair (a b : Condition) :
    conjunction driver [a, b] = a.expression driver ++ " && " ++ b.expression driver := rfl

theorem expression_equals (key value : String) : (Condition.equals key value).expression driver =
    "device.attributes[\"" ++ driver ++ "\"]." ++ key ++ " == \"" ++ value ++ "\"" := rfl

theorem expression_atLeast (key : String) (amount : UInt32) :
    (Condition.atLeast key amount).expression driver =
      "device.attributes[\"" ++ driver ++ "\"]." ++ key ++ " >= " ++ Text.decimal amount.toNat := rfl

theorem expression_equals_inj {key value value' : String}
    (h : (Condition.equals key value).expression driver = (Condition.equals key value').expression driver) :
    value = value' := by
  rw [expression_equals, expression_equals] at h
  exact (String.append_right_inj _).1 ((String.append_left_inj _).1 h)

theorem model_of_wholeCards (h : conjunction driver (DeviceClass.wholeCardConditions model) =
    conjunction driver (DeviceClass.wholeCardConditions model')) : model = model' := by
  have hpair : ∀ model, conjunction driver (DeviceClass.wholeCardConditions model) =
      (Condition.equals "model" model).expression driver ++ " && " ++
        (Condition.equals "type" "NPU").expression driver := fun model => conjunction_pair _ _
  rw [hpair, hpair, String.append_left_inj, String.append_left_inj] at h
  exact expression_equals_inj h

theorem model_of_atLeast {key : String} {amount : UInt32}
    (h : conjunction driver [.atLeast key amount, .equals "model" model] =
      conjunction driver [.atLeast key amount, .equals "model" model']) : model = model' := by
  rw [conjunction_pair, conjunction_pair, String.append_right_inj] at h
  exact expression_equals_inj h

theorem wholeCards_ne_atLeast {key : String} {amount : UInt32} (hkey : ∀ p q, "model" ++ p ≠ key ++ q) :
    conjunction driver (DeviceClass.wholeCardConditions model) ≠
      conjunction driver [.atLeast key amount, .equals "model" model'] := by
  intro h
  unfold DeviceClass.wholeCardConditions at h
  rw [conjunction_pair, conjunction_pair, expression_equals, expression_atLeast] at h
  simp only [String.append_assoc, String.append_right_inj, -String.reduceAppend] at h
  exact hkey _ _ h

theorem model_ne_memory (p q : String) : "model" ++ p ≠ "memory" ++ q := by
  intro h
  have hchars := congrArg String.toList h
  simp at hchars

theorem model_ne_aicore (p q : String) : "model" ++ p ≠ "aicore" ++ q := by
  intro h
  have hchars := congrArg String.toList h
  simp at hchars

end Expressions

theorem separates_spec : Separates (fun x y => (x.toClass driver).spec = (y.toClass driver).spec)
    (fun t u => t.name = u.name) where
  wholeCards := by
    intro model other
    refine DeviceClass.spec_new_eq_iff.trans ⟨fun h => model_of_wholeCards h.1, fun h => ?_⟩
    rw [h]
    exact ⟨rfl, rfl⟩
  byMemory := by
    intro model other t u hmemory
    refine DeviceClass.spec_new_eq_iff.trans ?_
    rw [hmemory]
    refine and_congr_left fun _ => ⟨model_of_atLeast, fun h => ?_⟩
    rw [h]
  byCores := by
    intro model other t u hcore
    refine DeviceClass.spec_new_eq_iff.trans ?_
    rw [hcore]
    refine and_congr_left fun _ => ⟨model_of_atLeast, fun h => ?_⟩
    rw [h]
  unlike := by
    intro model other t
    constructor
    · intro h
      exact wholeCards_ne_atLeast model_ne_memory (DeviceClass.spec_new_eq_iff.1 h).1
    · intro h
      exact wholeCards_ne_atLeast model_ne_aicore (DeviceClass.spec_new_eq_iff.1 h).1

theorem oneSpecEach_iff : ClassRegistry.OneSpecEach (predefinedClasses driver cards) ↔
    ∀ x ∈ ofCards cards, ∀ y ∈ ofCards cards, x.stem = y.stem →
      (x.toClass driver).spec = (y.toClass driver).spec := by
  rw [predefinedClasses_eq, ClassRegistry.OneSpecEach]
  simp only [List.forall_mem_map, name_eq_iff]

theorem nodup_names_iff : ((predefinedClasses driver cards).map (·.name)).Nodup ↔
    ∀ x ∈ ofCards cards, ∀ y ∈ ofCards cards, x.stem = y.stem → x = y := by
  rw [predefinedClasses_eq, List.map_map, List.nodup_map_iff_inj_on nodup_ofCards]
  simp only [Function.comp_apply, name_eq_iff]

end ClassSubject

/-- What keeps the names of all predefined classes apart: of the templates on offer, those that agree in one
amount agree in both. -/
structure NamesApart (cards : List Card) : Prop where
  models : ClassSubject.ModelsApart cards
  templates : ∀ t ∈ offeredTemplates cards, ∀ u ∈ offeredTemplates cards,
    t.aiCore = u.aiCore ↔ t.memoryGb = u.memoryGb

/-- What keeps classes of one name the same: of the templates that stand for a shape, those that agree in one
amount go by one name. -/
structure SpecsApart (cards : List Card) : Prop where
  models : ClassSubject.ModelsApart cards
  templates : ∀ t ∈ shapes cards, ∀ u ∈ shapes cards,
    t.aiCore = u.aiCore ∨ t.memoryGb = u.memoryGb → t.name = u.name

section Published

variable {cards : List Card}

theorem namesApart_iff (driver : String) :
    NamesApart cards ↔ ((predefinedClasses driver cards).map (·.name)).Nodup := by
  rw [ClassSubject.nodup_names_iff, ClassSubject.separates_eq.forall_iff]
  constructor
  · rintro ⟨hmodels, htemplates⟩
    refine ⟨hmodels, fun t ht u hu hsame => ?_⟩
    have hboth := htemplates t (mem_offered_of_shapes ht) u (mem_offered_of_shapes hu)
    rcases hsame with hcore | hmemory
    · exact eq_of_shapes ht hu hcore (hboth.1 hcore)
    · exact eq_of_shapes ht hu (hboth.2 hmemory) hmemory
  · rintro ⟨hmodels, hshapes⟩
    refine ⟨hmodels, fun t ht u hu => ?_⟩
    obtain ⟨t', ht', ht⟩ := exists_mem_shapes ht
    obtain ⟨u', hu', hu⟩ := exists_mem_shapes hu
    obtain ⟨hcore, hmemory⟩ := Capacity.mk.inj ht
    obtain ⟨hcore', hmemory'⟩ := Capacity.mk.inj hu
    rw [← hcore, ← hmemory, ← hcore', ← hmemory']
    constructor
    · intro h
      rw [hshapes t' ht' u' hu' (.inl h)]
    · intro h
      rw [hshapes t' ht' u' hu' (.inr h)]

theorem specsApart_iff (driver : String) :
    SpecsApart cards ↔ ClassRegistry.OneSpecEach (predefinedClasses driver cards) := by
  rw [ClassSubject.oneSpecEach_iff, ClassSubject.separates_spec.forall_iff]
  exact ⟨fun h => ⟨h.models, h.templates⟩, fun h => ⟨h.1, h.2⟩⟩

theorem NamesApart.specsApart (h : NamesApart cards) : SpecsApart cards :=
  (specsApart_iff "").2 (ClassRegistry.oneSpecEach_of_nodup ((namesApart_iff "").1 h))

theorem plain_predefinedClasses {driver : String} : ∀ c ∈ predefinedClasses driver cards, c.spec.Plain := by
  rw [ClassSubject.predefinedClasses_eq, List.forall_mem_map]
  exact fun x _ => ClassSubject.plain_toClass

end Published

/-- Whatever a registry holds, publishing the predefined classes of cards does not fail and leaves of the
classes of one name the last. So all of them are held, and publishing again finds each unchanged and writes
nothing, exactly if no two of a name differ; this follows if all names are apart, which is a condition on
the models and templates of the cards. -/
theorem predefinedClasses_published (driver : String) (cards : List Card) (r : ClassRegistry) :
    let classes := predefinedClasses driver cards
    let held := (publish r classes).2
    (publish r classes).1 = 0 ∧
    (∀ name, held.spec? name =
      ((classes.reverse.find? fun c => c.name == name).map (·.spec)).or (r.spec? name)) ∧
    ((∀ c ∈ classes, held.spec? c.name = some c.spec) ↔ SpecsApart cards) ∧
    ((∀ c ∈ classes, upsert held c = (.ok .unchanged, held)) ↔ SpecsApart cards) ∧
    (publish held classes = (0, held) ↔ SpecsApart cards) ∧
    ((classes.map (·.name)).Nodup ↔ NamesApart cards) ∧ (NamesApart cards → SpecsApart cards) := by
  intro classes held
  have hplain : ∀ c ∈ classes, c.spec.Plain := plain_predefinedClasses
  have hheld : (∀ c ∈ classes, held.spec? c.name = some c.spec) ↔ SpecsApart cards :=
    (ClassRegistry.held_publish_iff hplain).trans (specsApart_iff driver).symm
  have hunchanged : (∀ c ∈ classes, upsert held c = (.ok .unchanged, held)) ↔
      ∀ c ∈ classes, held.spec? c.name = some c.spec :=
    forall₂_congr fun c hc => ClassRegistry.upsert_unchanged_iff (hplain c hc)
  have hagain : publish held classes = (0, held) ↔ SpecsApart cards :=
    (ClassRegistry.publish_again_iff hplain).trans (specsApart_iff driver).symm
  exact ⟨ClassRegistry.publish_failed hplain, fun name => ClassRegistry.spec?_publish hplain, hheld,
    hunchanged.trans hheld, hagain, (namesApart_iff driver).symm, NamesApart.specsApart⟩

def apartCards : List Card :=
  [.new "npu-0-0" 0 "Ascend910B" ⟨24, 64⟩ .standard, .new "npu-1-0" 1 "Ascend 310P" ⟨8, 24⟩ .standard]

theorem predefinedClasses_published_sample :
    let classes := predefinedClasses "npu.example.com" apartCards
    classes.length = 14 ∧ (classes.map (·.name)).Nodup ∧ ∀ r : ClassRegistry,
      publish (publish r classes).2 classes = (0, (publish r classes).2) := by
  intro classes
  have hapart : NamesApart apartCards :=
    ⟨⟨by decide +kernel, by decide +kernel⟩, by decide +kernel⟩
  obtain ⟨-, -, -, -, -, hnames, -⟩ :=
    predefinedClasses_published "npu.example.com" apartCards .empty
  refine ⟨by decide +kernel, hnames.2 hapart, fun r => ?_⟩
  obtain ⟨-, -, -, -, hagain, -, hspecs⟩ := predefinedClasses_published "npu.example.com" apartCards r
  exact hagain.2 (hspecs hapart)

def twinCoresCard : Card :=
  .new "npu-0-0" 0 "Ascend910B" ⟨24, 64⟩ (.ofList [⟨"vir02", 8, 12⟩, ⟨"vir02_16g", 8, 16⟩])

/-- The two classes by cores come under one name: the first is never held, and each publication writes
both. -/
theorem not_published_once :
    let classes := predefinedClasses "npu.example.com" [twinCoresCard]
    ¬ (classes.map (·.name)).Nodup ∧ ∀ r : ClassRegistry,
      ¬ (∀ c ∈ classes, (publish r classes).2.spec? c.name = some c.spec) ∧
      publish (publish r classes).2 classes ≠ (0, (publish r classes).2) := by
  intro classes
  have hnot : ¬ SpecsApart [twinCoresCard] := by
    intro h
    have hname := h.templates ⟨"vir02", 8, 12⟩ (by decide +kernel) ⟨"vir02_16g", 8, 16⟩ (by decide +kernel)
      (.inl rfl)
    exact absurd hname (by decide)
  have heach : ¬ ClassRegistry.OneSpecEach classes := fun h => hnot ((specsApart_iff _).2 h)
  refine ⟨fun h => heach (ClassRegistry.oneSpecEach_of_nodup h), fun r => ?_⟩
  refine ⟨fun h => heach ?_, fun h => heach ?_⟩
  · exact (ClassRegistry.held_publish_iff plain_predefinedClasses).1 h
  · exact (ClassRegistry.publish_again_iff plain_predefinedClasses).1 h

end SliceAgent
