import SliceAgent.Proofs.ClassFiles
import SliceAgent.Proofs.PublishedClasses

/-!
The two stores of device classes side by side: classes in memory and classes as files. As long as the names
are names of files, upserts in turn have the same outcomes in both and leave the same classes
(`ManifestDirectory.agrees_with_registry`).
-/
namespace SliceAgent

def upsertAll {σ : Type} [ClassStore σ] (s : σ) :
    List DeviceClass → List (Except ClassError Upserted) × σ
  | [] => ([], s)
  | c :: cs =>
    let (outcome, s) := upsert s c
    let (outcomes, s) := upsertAll s cs
    (outcome :: outcomes, s)

def specsOf (name : String) (cs : List DeviceClass) : List ClassSpec :=
  (cs.filter fun c => c.name == name).map (·.spec)

def ClassWrite.className : ClassWrite → String
  | created name => name
  | updated name => name

open Classical in
noncomputable def ClassSpec.changes (held : ClassSpec) : List ClassSpec → Nat
  | [] => 0
  | s :: ss => (if s = held then 0 else 1) + changes s ss

section Specs

variable {name : String} {c : DeviceClass} {cs : List DeviceClass}

theorem specsOf_cons_self : specsOf c.name (c :: cs) = c.spec :: specsOf c.name cs := by
  simp [specsOf]

theorem specsOf_cons_other (hne : c.name ≠ name) : specsOf name (c :: cs) = specsOf name cs := by
  simp [specsOf, hne]

end Specs

namespace DeviceClass

variable {driver name expression templateName : String}

theorem readsBack_new : (DeviceClass.new driver name expression templateName).ReadsBack where
  spec := Json.read_compact plainWithin_new (by decide)
  file version := by
    refine Json.read_pretty (n := 7) ?_ (by decide)
    have hspec : Json.plainWithin 6 (DeviceClass.new driver name expression templateName).spec.encode = true :=
      plainWithin_new
    have hmetadata : Json.plainWithin 6
        (encodeMetadata { DeviceClass.new driver name expression templateName with resourceVersion := version }) =
          true := by
      unfold encodeMetadata
      split <;> rfl
    simp only [encode, Json.plainWithin, Json.membersPlain, hspec, hmetadata, Bool.and_self]

end DeviceClass

namespace ClassRegistry

variable {r : ClassRegistry} {w : DeviceClass} {name : String} {cs : List DeviceClass}

def log (r : ClassRegistry) (name : String) : List ClassWrite :=
  r.writes.filter fun write => write.className == name

def ReadsBack (r : ClassRegistry) : Prop := ∀ name c, r.classes.find? name = some c → c.ReadsBack

theorem readsBack_empty : empty.ReadsBack := nofun

theorem ReadsBack.record {write : ClassWrite} (h : r.ReadsBack) (hw : w.ReadsBack) :
    (r.record w write).ReadsBack := by
  intro name c hc
  have hfind : (r.record w write).classes.find? name = if name = w.name then some w else r.classes.find? name :=
    Dict.find?_insert ..
  rw [hfind] at hc
  split at hc
  · have heq := Option.some.inj hc
    exact heq ▸ hw
  · exact h name c hc

theorem ReadsBack.tells (h : r.ReadsBack) (hw : w.ReadsBack) (stored : DeviceClass)
    (hfind : r.classes.find? w.name = some stored) :
    stored.spec.text = w.spec.text ↔ stored.spec = w.spec := (h w.name stored hfind).text_eq_iff hw

theorem readsBack_upsert (h : r.ReadsBack) (hw : w.ReadsBack) : (upsert r w).2.ReadsBack := by
  rcases upsert_outcomes (h.tells hw) with ⟨-, hnew⟩ | ⟨stored, -, ⟨-, -, hsame⟩ | ⟨-, -, hother⟩⟩
  · rw [hnew]
    exact h.record hw
  · rw [hsame]
    exact h
  · rw [hother]
    exact h.record (hw.withVersion stored.resourceVersion)

theorem log_record_self {write : ClassWrite} (h : write.className = name) :
    (r.record w write).log name = r.log name ++ [write] := by
  rw [log, record, List.filter_append, List.filter_singleton, h, beq_self_eq_true]
  rfl

theorem log_record_other {write : ClassWrite} (h : write.className ≠ name) :
    (r.record w write).log name = r.log name := by
  rw [log, record, List.filter_append, List.filter_singleton, beq_false_of_ne h]
  exact List.append_nil _

theorem upsert_own (h : r.ReadsBack) (hw : w.ReadsBack) : (upsert r w).2.spec? w.name = some w.spec ∧
    (r.spec? w.name = none → (upsert r w).2.log w.name = r.log w.name ++ [.created w.name]) ∧
    ∀ held, r.spec? w.name = some held → (upsert r w).2.log w.name =
      r.log w.name ++ List.replicate (held.changes [w.spec]) (.updated w.name) := by
  unfold spec?
  rcases upsert_outcomes (h.tells hw) with ⟨hnone, hnew⟩ | ⟨stored, hstored, hold⟩
  · have hspec : (r.record w (.created w.name)).spec? w.name = some w.spec := by
      rw [spec?_record, if_pos rfl]
    rw [hnone, hnew]
    exact ⟨hspec, fun _ => log_record_self rfl, nofun⟩
  · rw [hstored]
    rcases hold with ⟨-, hspec, hsame⟩ | ⟨-, hspec, hother⟩
    · rw [hsame]
      refine ⟨?_, nofun, fun held hheld => ?_⟩
      · rw [hstored, Option.map_some, hspec]
      · cases hheld
        simp [ClassSpec.changes, hspec]
    · rw [hother]
      refine ⟨?_, nofun, fun held hheld => ?_⟩
      · exact spec?_record.trans (if_pos rfl)
      · cases hheld
        rw [ClassSpec.changes, ClassSpec.changes, if_neg (Ne.symm hspec)]
        exact log_record_self rfl

theorem upsert_other (h : r.ReadsBack) (hw : w.ReadsBack) (hne : name ≠ w.name) :
    (upsert r w).2.classes.find? name = r.classes.find? name ∧ (upsert r w).2.log name = r.log name := by
  have hrecord : ∀ {c : DeviceClass} {write : ClassWrite}, c.name = w.name → write.className = w.name →
      (r.record c write).classes.find? name = r.classes.find? name ∧
        (r.record c write).log name = r.log name := by
    intro c write hc hwrite
    constructor
    · rw [record, hc]
      exact (Dict.find?_insert ..).trans (if_neg hne)
    · exact log_record_other (hwrite ▸ Ne.symm hne)
  rcases upsert_outcomes (h.tells hw) with ⟨-, hnew⟩ | ⟨stored, -, ⟨-, -, hsame⟩ | ⟨-, -, hother⟩⟩
  · rw [hnew]
    exact hrecord rfl rfl
  · rw [hsame]
    exact ⟨rfl, rfl⟩
  · rw [hother]
    exact hrecord rfl rfl

section Runs

theorem spec?_upsertAll (h : r.ReadsBack) (hcs : ∀ c ∈ cs, c.ReadsBack) :
    (upsertAll r cs).2.spec? name = (specsOf name cs).getLast?.or (r.spec? name) := by
  induction cs generalizing r with
  | nil => rfl
  | cons c cs ih =>
    obtain ⟨hc, hcs⟩ := List.forall_mem_cons.1 hcs
    have hrest := ih (readsBack_upsert h hc) hcs
    rw [upsertAll]
    simp only
    rw [hrest]
    by_cases hname : c.name = name
    · subst hname
      rw [specsOf_cons_self, (upsert_own h hc).1, List.getLast?_cons]
      cases (specsOf c.name cs).getLast? <;> rfl
    · rw [specsOf_cons_other hname, spec?, (upsert_other h hc (Ne.symm hname)).1]
      rfl

theorem log_upsertAll_of_held {held : ClassSpec} (h : r.ReadsBack) (hcs : ∀ c ∈ cs, c.ReadsBack)
    (hheld : r.spec? name = some held) : (upsertAll r cs).2.log name =
      r.log name ++ List.replicate (held.changes (specsOf name cs)) (.updated name) := by
  induction cs generalizing r held with
  | nil => simp [upsertAll, specsOf, ClassSpec.changes]
  | cons c cs ih =>
    obtain ⟨hc, hcs⟩ := List.forall_mem_cons.1 hcs
    have hreadable := readsBack_upsert h hc
    rw [upsertAll]
    simp only
    by_cases hname : c.name = name
    · subst hname
      obtain ⟨hspec, -, hlog⟩ := upsert_own h hc
      rw [ih hreadable hcs hspec, hlog held hheld, specsOf_cons_self, List.append_assoc,
        List.replicate_append_replicate]
      simp only [ClassSpec.changes, Nat.add_zero]
    · obtain ⟨hfind, hlog⟩ := upsert_other h hc (Ne.symm hname)
      have hspec : (upsert r c).2.spec? name = some held := by rw [spec?, hfind]; exact hheld
      rw [ih hreadable hcs hspec, hlog, specsOf_cons_other hname]

theorem log_upsertAll_of_new (h : r.ReadsBack) (hcs : ∀ c ∈ cs, c.ReadsBack)
    (hnew : r.spec? name = none) : (upsertAll r cs).2.log name = r.log name ++
      match specsOf name cs with
      | [] => []
      | s :: ss => .created name :: List.replicate (s.changes ss) (.updated name) := by
  induction cs generalizing r with
  | nil => simp [upsertAll, specsOf]
  | cons c cs ih =>
    obtain ⟨hc, hcs⟩ := List.forall_mem_cons.1 hcs
    have hreadable := readsBack_upsert h hc
    rw [upsertAll]
    simp only
    by_cases hname : c.name = name
    · subst hname
      obtain ⟨hspec, hlog, -⟩ := upsert_own h hc
      rw [log_upsertAll_of_held hreadable hcs hspec, hlog hnew, specsOf_cons_self, List.append_assoc]
      rfl
    · obtain ⟨hfind, hlog⟩ := upsert_other h hc (Ne.symm hname)
      have hspec : (upsert r c).2.spec? name = none := by rw [spec?, hfind]; exact hnew
      rw [ih hreadable hcs hspec, hlog, specsOf_cons_other hname]

end Runs

end ClassRegistry

namespace ManifestDirectory

variable {m : ManifestDirectory} {r : ClassRegistry} {w c : DeviceClass} {dir name : String}
  {cs : List DeviceClass}

/-- The same classes, as files of a directory and in memory. -/
structure Agrees (dir : String) (m : ManifestDirectory) (r : ClassRegistry) : Prop where
  place : m.dir = dir
  flat : m.IsFlat
  readable : r.ReadsBack
  get_eq : ∀ name, IsFileName dir name → m.get name = .ok (r.classes.find? name)

theorem agrees_of_empty (hempty : m.files.list m.dir = .ok []) : Agrees m.dir m ClassRegistry.empty where
  place := rfl
  flat := isFlat_of_empty hempty
  readable := ClassRegistry.readsBack_empty
  get_eq _ h := get_of_empty hempty h

theorem Agrees.write {write : ClassWrite} (h : Agrees dir m r) (hname : IsFileName dir c.name)
    (hc : c.ReadsBack) : Agrees dir (m.write c).2 (r.record c write) := by
  obtain ⟨rfl, hflat, hreadable, hget⟩ := h
  refine ⟨?_, hflat.write hname, hreadable.record hc, fun name hfile => ?_⟩
  · rw [write_eq hflat hname]
  · have hfind : (r.record c write).classes.find? name =
        if name = c.name then some c else r.classes.find? name := Dict.find?_insert ..
    rw [hfind]
    split
    · rename_i heq
      rw [heq]
      exact get_write hflat hname hc
    · rename_i hne
      rw [get_write_other hflat hname hfile hne]
      exact hget name hfile

theorem write_ok (hm : m.IsFlat) (h : IsFileName m.dir c.name) : m.write c = (.ok (), (m.write c).2) := by
  rw [write_eq hm h]

theorem Agrees.upsert (h : Agrees dir m r) (hname : IsFileName dir w.name) (hw : w.ReadsBack) :
    ∃ how, (upsert m w).1 = .ok how ∧ (upsert r w).1 = .ok how ∧
      Agrees dir (upsert m w).2 (upsert r w).2 := by
  have hget : ClassStore.get m w.name = .ok (r.classes.find? w.name) := h.get_eq w.name hname
  have hown : IsFileName m.dir w.name := h.place.symm ▸ hname
  rcases ClassRegistry.upsert_outcomes (h.readable.tells hw) with ⟨hnone, hnew⟩ | ⟨stored, hstored, hold⟩
  · have hcreate : ClassStore.create m w = (.ok (), (m.write w).2) := write_ok h.flat hown
    have hfiles : SliceAgent.upsert m w = (.ok .created, (m.write w).2) :=
      upsert_of_create (hnone ▸ hget) hcreate
    have hagrees : Agrees dir (m.write w).2 (r.record w (.created w.name)) := h.write hname hw
    rw [hfiles, hnew]
    exact ⟨.created, rfl, rfl, hagrees⟩
  · have hupdate : ClassStore.update m { w with resourceVersion := stored.resourceVersion } =
        (.ok (), (m.write { w with resourceVersion := stored.resourceVersion }).2) := write_ok h.flat hown
    have hfiles := upsert_of_update (hstored ▸ hget) hupdate
    rcases hold with ⟨htext, -, hsame⟩ | ⟨htext, -, hother⟩
    · rw [if_pos htext] at hfiles
      rw [hfiles, hsame]
      exact ⟨.unchanged, rfl, rfl, h⟩
    · have hreads := hw.withVersion stored.resourceVersion
      have hagrees : Agrees dir (m.write { w with resourceVersion := stored.resourceVersion }).2
          (r.record { w with resourceVersion := stored.resourceVersion } (.updated w.name)) :=
        h.write hname hreads
      rw [if_neg htext] at hfiles
      rw [hfiles, hother]
      exact ⟨.updated, rfl, rfl, hagrees⟩

theorem Agrees.upsertAll (h : Agrees dir m r) (hnames : ∀ c ∈ cs, IsFileName dir c.name)
    (hreads : ∀ c ∈ cs, c.ReadsBack) : (upsertAll m cs).1 = (upsertAll r cs).1 ∧
      (∀ outcome ∈ (upsertAll m cs).1, ∃ how, outcome = .ok how) ∧
      Agrees dir (upsertAll m cs).2 (upsertAll r cs).2 := by
  induction cs generalizing m r with
  | nil => exact ⟨rfl, List.forall_mem_nil _, h⟩
  | cons c cs ih =>
    obtain ⟨hname, hnames⟩ := List.forall_mem_cons.1 hnames
    obtain ⟨hc, hreads⟩ := List.forall_mem_cons.1 hreads
    obtain ⟨how, hm, hr, hstep⟩ := h.upsert hname hc
    obtain ⟨hsame, hok, hrest⟩ := ih hstep hnames hreads
    simp only [SliceAgent.upsertAll]
    refine ⟨?_, ?_, hrest⟩
    · rw [hm, hr, hsame]
    · exact List.forall_mem_cons.2 ⟨⟨how, hm⟩, hok⟩

/-- Started on an empty directory and an empty registry, upserts of classes whose names are names of files
have the same outcomes in both, none of them an error, and leave the same class under every name. It has the
specification of the last upsert of the name; the writes of a name are one creation, and one update for each
upsert with another specification than the one before; and a further upsert leaves all other names alone. -/
theorem agrees_with_registry (hempty : m.files.list m.dir = .ok [])
    (hnames : ∀ c ∈ cs, IsFileName m.dir c.name) (hreads : ∀ c ∈ cs, c.ReadsBack) :
    let files := SliceAgent.upsertAll m cs
    let registry := SliceAgent.upsertAll ClassRegistry.empty cs
    files.1 = registry.1 ∧ (∀ outcome ∈ files.1, ∃ how, outcome = .ok how) ∧
      (∀ name, IsFileName m.dir name → ClassStore.get files.2 name = ClassStore.get registry.2 name) ∧
      (∀ name, registry.2.spec? name = (specsOf name cs).getLast?) ∧
      (∀ name, registry.2.log name = match specsOf name cs with
        | [] => []
        | s :: ss => .created name :: List.replicate (s.changes ss) (.updated name)) ∧
      ∀ w name, IsFileName m.dir w.name → w.ReadsBack → IsFileName m.dir name → name ≠ w.name →
        ClassStore.get (SliceAgent.upsert files.2 w).2 name = ClassStore.get files.2 name ∧
        ClassStore.get (SliceAgent.upsert registry.2 w).2 name = ClassStore.get registry.2 name := by
  obtain ⟨hsame, hok, hend⟩ := (agrees_of_empty hempty).upsertAll hnames hreads
  have hreadable := ClassRegistry.readsBack_empty
  refine ⟨hsame, hok, hend.get_eq, fun name => ?_, fun name => ?_, ?_⟩
  · exact (ClassRegistry.spec?_upsertAll hreadable hreads).trans Option.or_none
  · exact ClassRegistry.log_upsertAll_of_new hreadable hreads rfl
  · intro w name hname hw hfile hne
    obtain ⟨how, -, -, hnext⟩ := hend.upsert hname hw
    have hother := (ClassRegistry.upsert_other hend.readable hw hne).1
    have hregistry : ClassStore.get (SliceAgent.upsert (SliceAgent.upsertAll ClassRegistry.empty cs).2 w).2 name =
        ClassStore.get (SliceAgent.upsertAll ClassRegistry.empty cs).2 name := congrArg Except.ok hother
    refine ⟨?_, hregistry⟩
    exact ((hnext.get_eq name hfile).trans hregistry).trans (hend.get_eq name hfile).symm

def bare : ManifestDirectory := ⟨"/classes", FileTree.empty.put ["classes"] .directory⟩

def sampleClass (name expression : String) : DeviceClass :=
  DeviceClass.new "npu.example.com" name expression "vir02"

theorem agrees_with_registry_bare :
    let cs := [sampleClass "small" "a", sampleClass "large" "a", sampleClass "small" "a",
      sampleClass "small" "b"]
    bare.files.list bare.dir = .ok [] ∧ (∀ c ∈ cs, IsFileName bare.dir c.name) ∧
      (∀ c ∈ cs, c.ReadsBack) ∧ (SliceAgent.upsertAll bare cs).1 = (SliceAgent.upsertAll ClassRegistry.empty cs).1 ∧
      (SliceAgent.upsertAll ClassRegistry.empty cs).2.log "small" = [.created "small", .updated "small"] ∧
      (SliceAgent.upsertAll ClassRegistry.empty cs).2.spec? "small" = some (sampleClass "small" "b").spec := by
  intro cs
  have hempty : bare.files.list bare.dir = .ok [] := by decide +kernel
  have hnames : ∀ c ∈ cs, IsFileName bare.dir c.name := by
    have hsmall : IsFileName bare.dir "small" := ⟨by decide, by decide, by decide +kernel, by decide +kernel⟩
    have hlarge : IsFileName bare.dir "large" := ⟨by decide, by decide, by decide +kernel, by decide +kernel⟩
    simp only [cs, List.forall_mem_cons]
    exact ⟨hsmall, hlarge, hsmall, hsmall, List.forall_mem_nil _⟩
  have hreads : ∀ c ∈ cs, c.ReadsBack := by
    simp only [cs, List.forall_mem_cons]
    exact ⟨DeviceClass.readsBack_new, DeviceClass.readsBack_new, DeviceClass.readsBack_new,
      DeviceClass.readsBack_new, List.forall_mem_nil _⟩
  obtain ⟨hsame, -, -, hspec, hlog, -⟩ := agrees_with_registry hempty hnames hreads
  refine ⟨hempty, hnames, hreads, hsame, ?_, hspec "small"⟩
  rw [hlog "small"]
  have hspecs : specsOf "small" cs =
      [(sampleClass "small" "a").spec, (sampleClass "small" "a").spec, (sampleClass "small" "b").spec] := rfl
  have hdiffer : (sampleClass "small" "b").spec ≠ (sampleClass "small" "a").spec := fun h =>
    absurd (DeviceClass.spec_new_eq_iff.1 h).1 (by decide)
  rw [hspecs]
  simp [ClassSpec.changes, hdiffer]

end ManifestDirectory

end SliceAgent
