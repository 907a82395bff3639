import Mathlib.Data.List.Nodup
import SliceAgent.DeviceClass.Store
import SliceAgent.Proofs.Dict
import SliceAgent.Proofs.WordedText

/-!
What publishing leaves in a registry: under the name of each published class the specification of the last
class of that name, under other names what was there (`ClassRegistry.spec?_publish`). Publishing again writes
nothing exactly if all classes of one name have one specification (`ClassRegistry.publish_again_iff`).
-/
namespace SliceAgent

namespace ClassSpec

variable {s t : ClassSpec}

def Plain (s : ClassSpec) : Prop := ∃ n, Json.plainWithin n s.encode = true

theorem encodeSelector_injective : Function.Injective encodeSelector := by
  intro x y h
  simpa [encodeSelector] using h

theorem encodeConfig_injective : Function.Injective encodeConfig := by
  rintro ⟨driver, ⟨j, hj⟩⟩ ⟨driver', ⟨j', hj'⟩⟩ h
  obtain ⟨rfl, rfl⟩ : driver = driver' ∧ j = j' := by simpa [encodeConfig, DriverParameters.encode] using h
  rfl

theorem encode_injective (h : s.encode = t.encode) : s = t := by
  obtain ⟨selectors, config⟩ := s
  obtain ⟨selectors', config'⟩ := t
  obtain ⟨hselectors, hconfig⟩ : selectors.map encodeSelector = selectors'.map encodeSelector ∧
      config.map encodeConfig = config'.map encodeConfig := by simpa [encode] using h
  have hs : selectors = selectors' := (List.map_inj_right encodeSelector_injective).1 hselectors
  have hc : config = config' := (List.map_inj_right encodeConfig_injective).1 hconfig
  rw [hs, hc]

theorem Plain.text_eq_iff (ht : t.Plain) : s.text = t.text ↔ s = t := by
  obtain ⟨n, hn⟩ := ht
  refine ⟨fun h => encode_injective (Json.eq_of_compact hn h), fun h => ?_⟩
  rw [h]

end ClassSpec

theorem NpuConfig.json_toRaw_ofTemplate (name : String) :
    (ofTemplate name).toRaw.json = (ofTemplate name).encode := by
  have hkeys : ["apiVersion", "kind", "vnpuSpec"].Pairwise (· < ·) := by decide +kernel
  have hsorted : Json.SortedMembers ([] ++ [("apiVersion", .str ownApiVersion), ("kind", .str ownKind),
      ("vnpuSpec", encodeTemplate name)]) := by
    refine ⟨List.pairwise_map.1 hkeys, ?_⟩
    simp [Json.canonical, Json.canonicalMembers, encodeTemplate, putEntry]
  exact congrArg Json.obj (Json.canonicalMembers_of_sorted hsorted)

namespace DeviceClass

variable {driver name name' expression expression' templateName templateName' : String}

theorem plainWithin_new :
    Json.plainWithin 6 (DeviceClass.new driver name expression templateName).spec.encode = true := by
  simp only [new, ClassSpec.encode, ClassSpec.encodeConfig, DriverParameters.encode, List.map_cons,
    List.map_nil, NpuConfig.json_toRaw_ofTemplate]
  rfl

theorem plain_new : (DeviceClass.new driver name expression templateName).spec.Plain := ⟨6, plainWithin_new⟩

theorem spec_new_eq_iff : (DeviceClass.new driver name expression templateName).spec =
    (DeviceClass.new driver name' expression' templateName').spec ↔
      expression = expression' ∧ templateName = templateName' := by
  constructor
  · intro h
    obtain ⟨hselectors, hconfig⟩ := ClassSpec.mk.inj h
    have hraw := congrArg CanonicalJson.json
      (DriverParameters.mk.inj (List.cons.inj hconfig).1).2
    rw [NpuConfig.json_toRaw_ofTemplate, NpuConfig.json_toRaw_ofTemplate] at hraw
    refine ⟨(List.cons.inj hselectors).1, ?_⟩
    simpa [NpuConfig.ofTemplate, NpuConfig.encode, Json.member?, NpuConfig.encodeTemplate] using hraw
  · rintro ⟨rfl, rfl⟩
    rfl

end DeviceClass

section Upserts

variable {σ : Type} [ClassStore σ] {s s' : σ} {w stored : DeviceClass}

theorem upsert_of_create (hget : ClassStore.get s w.name = .ok none)
    (hcreate : ClassStore.create s w = (.ok (), s')) : upsert s w = (.ok .created, s') := by
  simp only [upsert, hget, hcreate]
  rfl

theorem upsert_of_update (hget : ClassStore.get s w.name = .ok (some stored))
    (hupdate : ClassStore.update s { w with resourceVersion := stored.resourceVersion } = (.ok (), s')) :
    upsert s w = if stored.spec.text = w.spec.text then (.ok .unchanged, s) else (.ok .updated, s') := by
  simp only [upsert, hget, hupdate]
  rfl

end Upserts

namespace ClassRegistry

variable {r : ClassRegistry} {w : DeviceClass} {name : String} {cs : List DeviceClass}

def spec? (r : ClassRegistry) (name : String) : Option ClassSpec := (r.classes.find? name).map (·.spec)

theorem upsert_of_missing (h : r.classes.find? w.name = none) :
    upsert r w = (.ok .created, r.record w (.created w.name)) := by
  have hcreate : ClassStore.create r w = (.ok (), r.record w (.created w.name)) :=
    if_neg (by rw [Dict.contains, h]; exact Bool.false_ne_true)
  exact upsert_of_create (congrArg Except.ok h) hcreate

theorem upsert_of_stored {stored : DeviceClass} (h : r.classes.find? w.name = some stored) :
    upsert r w = if stored.spec.text = w.spec.text then (.ok .unchanged, r)
      else (.ok .updated,
        r.record { w with resourceVersion := stored.resourceVersion } (.updated w.name)) := by
  have hupdate : ClassStore.update r { w with resourceVersion := stored.resourceVersion } =
      (.ok (), r.record { w with resourceVersion := stored.resourceVersion } (.updated w.name)) :=
    if_pos (by rw [Dict.contains, h]; rfl)
  exact upsert_of_update (congrArg Except.ok h) hupdate

theorem upsert_outcomes (htells : ∀ stored, r.classes.find? w.name = some stored →
      (stored.spec.text = w.spec.text ↔ stored.spec = w.spec)) :
    r.classes.find? w.name = none ∧ upsert r w = (.ok .created, r.record w (.created w.name)) ∨
    ∃ stored, r.classes.find? w.name = some stored ∧
      (stored.spec.text = w.spec.text ∧ stored.spec = w.spec ∧ upsert r w = (.ok .unchanged, r) ∨
      stored.spec.text ≠ w.spec.text ∧ stored.spec ≠ w.spec ∧ upsert r w = (.ok .updated,
        r.record { w with resourceVersion := stored.resourceVersion } (.updated w.name))) := by
  cases hfind : r.classes.find? w.name with
  | none => exact .inl ⟨rfl, upsert_of_missing hfind⟩
  | some stored =>
    have hiff := htells stored hfind
    refine .inr ⟨stored, rfl, ?_⟩
    rw [upsert_of_stored hfind]
    by_cases htext : stored.spec.text = w.spec.text
    · exact .inl ⟨htext, hiff.1 htext, if_pos htext⟩
    · exact .inr ⟨htext, fun hspec => htext (hiff.2 hspec), if_neg htext⟩

theorem upsert_cases (hw : w.spec.Plain) :
    r.spec? w.name = some w.spec ∧ upsert r w = (.ok .unchanged, r) ∨
    r.spec? w.name ≠ some w.spec ∧ ∃ how c write, upsert r w = (.ok how, r.record c write) ∧
      how ≠ .unchanged ∧ c.name = w.name ∧ c.spec = w.spec := by
  unfold spec?
  have houtcomes := upsert_outcomes (r := r) fun _ _ => hw.text_eq_iff
  rcases houtcomes with ⟨hnone, hnew⟩ | ⟨stored, hstored, ⟨-, hspec, hsame⟩ | ⟨-, hspec, hother⟩⟩
  · rw [hnone]
    exact .inr ⟨nofun, _, _, _, hnew, nofun, rfl, rfl⟩
  · rw [hstored]
    exact .inl ⟨congrArg some hspec, hsame⟩
  · rw [hstored]
    exact .inr ⟨fun heq => hspec (Option.some.inj heq), _, _, _, hother, nofun, rfl, rfl⟩

theorem spec?_record {c : DeviceClass} {write : ClassWrite} :
    (r.record c write).spec? name = if name = c.name then some c.spec else r.spec? name := by
  unfold spec? record
  rw [Dict.find?_insert]
  split <;> rfl

theorem spec?_upsert (hw : w.spec.Plain) :
    (upsert r w).2.spec? name = if name = w.name then some w.spec else r.spec? name := by
  rcases upsert_cases (r := r) hw with ⟨hheld, hsame⟩ | ⟨-, how, c, write, hstored, -, hname, hspec⟩
  · rw [hsame]
    split
    · rename_i heq
      rw [heq, hheld]
    · rfl
  · rw [hstored, spec?_record, hname, hspec]

theorem isOk_upsert (hw : w.spec.Plain) : ∃ how, upsert r w = (.ok how, (upsert r w).2) := by
  rcases upsert_cases (r := r) hw with ⟨-, hsame⟩ | ⟨-, how, c, write, hstored, -⟩
  · exact ⟨_, by rw [hsame]⟩
  · exact ⟨_, by rw [hstored]⟩

theorem upsert_unchanged_iff (hw : w.spec.Plain) :
    upsert r w = (.ok .unchanged, r) ↔ r.spec? w.name = some w.spec := by
  rcases upsert_cases (r := r) hw with ⟨hheld, hsame⟩ | ⟨hnot, how, c, write, hstored, hhow, -⟩
  · exact ⟨fun _ => hheld, fun _ => hsame⟩
  · refine ⟨fun h => ?_, fun h => absurd h hnot⟩
    rw [hstored] at h
    exact absurd (Except.ok.inj (congrArg Prod.fst h)) hhow

theorem writes_upsert (hw : w.spec.Plain) :
    r.writes.length ≤ (upsert r w).2.writes.length ∧
      ((upsert r w).2.writes.length = r.writes.length → upsert r w = (.ok .unchanged, r)) := by
  rcases upsert_cases (r := r) hw with ⟨-, hsame⟩ | ⟨-, how, c, write, hstored, -⟩
  · rw [hsame]
    exact ⟨Nat.le_refl _, fun _ => rfl⟩
  · rw [hstored]
    have hone : (r.record c write).writes.length = r.writes.length + 1 := List.length_append
    refine ⟨?_, fun h => absurd (hone.symm.trans h) (Nat.succ_ne_self _)⟩
    rw [hone]
    exact Nat.le_succ _

theorem publish_cons (hw : w.spec.Plain) : publish r (w :: cs) = publish (upsert r w).2 cs := by
  obtain ⟨how, hok⟩ := isOk_upsert (r := r) hw
  rw [publish, hok]

section Publish

variable (hcs : ∀ c ∈ cs, c.spec.Plain)

include hcs

theorem publish_failed : (publish r cs).1 = 0 := by
  induction cs generalizing r with
  | nil => rfl
  | cons c cs ih =>
    obtain ⟨hc, hcs⟩ := List.forall_mem_cons.1 hcs
    rw [publish_cons hc, ih hcs]

theorem writes_publish : r.writes.length ≤ (publish r cs).2.writes.length := by
  induction cs generalizing r with
  | nil => exact Nat.le_refl _
  | cons c cs ih =>
    obtain ⟨hc, hcs⟩ := List.forall_mem_cons.1 hcs
    rw [publish_cons hc]
    exact Nat.le_trans (writes_upsert hc).1 (ih hcs)

theorem spec?_publish : (publish r cs).2.spec? name =
    ((cs.reverse.find? fun c => c.name == name).map (·.spec)).or (r.spec? name) := by
  induction cs generalizing r with
  | nil => rfl
  | cons c cs ih =>
    obtain ⟨hc, hcs⟩ := List.forall_mem_cons.1 hcs
    rw [publish_cons hc, ih hcs, spec?_upsert hc, List.reverse_cons, List.find?_append]
    cases cs.reverse.find? fun c => c.name == name with
    | some d => rfl
    | none =>
      by_cases hname : c.name = name
      · simp [hname]
      · simp [hname, Ne.symm hname]

theorem publish_unchanged_iff : publish r cs = (0, r) ↔ ∀ c ∈ cs, r.spec? c.name = some c.spec := by
  induction cs with
  | nil => exact ⟨fun _ => List.forall_mem_nil _, fun _ => rfl⟩
  | cons c cs ih =>
    obtain ⟨hc, hcs⟩ := List.forall_mem_cons.1 hcs
    rw [publish_cons hc, List.forall_mem_cons, ← upsert_unchanged_iff hc, ← ih hcs]
    constructor
    · intro h
      -- the log never becomes shorter, so no class has added to it
      have hwrites := (writes_upsert (r := r) hc).1
      have hrest := writes_publish (r := (upsert r c).2) hcs
      rw [h] at hrest
      have hsame := (writes_upsert (r := r) hc).2 (Nat.le_antisymm hrest hwrites)
      refine ⟨hsame, ?_⟩
      rwa [hsame] at h
    · rintro ⟨hsame, h⟩
      rw [hsame]
      exact h

end Publish

def OneSpecEach (cs : List DeviceClass) : Prop :=
  ∀ c ∈ cs, ∀ d ∈ cs, c.name = d.name → c.spec = d.spec

theorem oneSpecEach_of_nodup (h : (cs.map (·.name)).Nodup) : OneSpecEach cs := by
  intro c hc d hd hname
  rw [List.inj_on_of_nodup_map h hc hd hname]

theorem held_publish_iff (hcs : ∀ c ∈ cs, c.spec.Plain) :
    (∀ c ∈ cs, (publish r cs).2.spec? c.name = some c.spec) ↔ OneSpecEach cs := by
  have hlast : ∀ c ∈ cs, ∃ d ∈ cs, d.name = c.name ∧ (publish r cs).2.spec? c.name = some d.spec := by
    intro c hc
    obtain ⟨d, hd⟩ : ∃ d, cs.reverse.find? (fun d => d.name == c.name) = some d := by
      rw [← Option.isSome_iff_exists, List.find?_isSome]
      exact ⟨c, List.mem_reverse.2 hc, beq_self_eq_true _⟩
    refine ⟨d, List.mem_reverse.1 (List.mem_of_find?_eq_some hd), ?_, ?_⟩
    · simpa using List.find?_some hd
    · rw [spec?_publish hcs, hd]
      rfl
  constructor
  · intro h c hc d hd hname
    have heq := h d hd
    rw [← hname, h c hc] at heq
    exact Option.some.inj heq
  · intro h c hc
    obtain ⟨d, hd, hname, hspec⟩ := hlast c hc
    rw [hspec, h d hd c hc hname]

theorem publish_again_iff (hcs : ∀ c ∈ cs, c.spec.Plain) :
    publish (publish r cs).2 cs = (0, (publish r cs).2) ↔ OneSpecEach cs :=
  (publish_unchanged_iff hcs).trans (held_publish_iff hcs)

end ClassRegistry

end SliceAgent
