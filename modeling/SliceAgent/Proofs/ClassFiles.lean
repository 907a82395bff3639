import SliceAgent.DeviceClass.Store
import SliceAgent.Proofs.FieldsLaws
import SliceAgent.Proofs.FilePlaces
import SliceAgent.Proofs.JsonLayout

/-!
The files of device classes. In a directory without directories every class has a file to itself: what is
written there is read back, and the other classes are read as before.
-/
namespace SliceAgent

section Decoding

open Fields

theorem DriverParameters.decode_encode (p : DriverParameters) :
    decode .json (Doc.ofJson p.encode) = .ok p :=
  Decoder.record_ofJson (((takes_pure DriverParameters.mk).field (takes_field rfl) rfl).field
    (takes_field (Decoder.value_ofJson .json p.parameters)) rfl)

namespace ClassSpec

theorem decodeSelector_encode (expression : String) :
    decodeSelector .json (Doc.ofJson (encodeSelector expression)) = .ok expression := by
  have hexpression : decodeExpression .json (Doc.ofJson (.obj [("expression", .str expression)])) =
      .ok expression := Decoder.record_ofJson ((takes_pure id).field (takes_field rfl) rfl)
  exact Decoder.record_ofJson ((takes_pure id).field (takes_field hexpression) rfl)

theorem decodeConfig_encode (p : DriverParameters) :
    decodeConfig .json (Doc.ofJson (encodeConfig p)) = .ok p :=
  Decoder.record_ofJson ((takes_pure id).field (takes_field p.decode_encode) rfl)

theorem decode_encode (s : ClassSpec) : decode .json (Doc.ofJson s.encode) = .ok s :=
  Decoder.record_ofJson (((takes_pure ClassSpec.mk).field
    (takes_field (Decoder.list_ofJson decodeSelector_encode s.selectors)) rfl).field
    (takes_field (Decoder.list_ofJson decodeConfig_encode s.config)) rfl)

end ClassSpec

namespace DeviceClass

theorem takes_version (version : String) :
    (Fields.defaulted "resourceVersion" Decoder.string "").Takes
      (Json.member? "resourceVersion" .str (if version = "" then none else some version)) version := by
  split
  · rename_i hempty
    rw [hempty]
    exact takes_absent
  · exact takes_field rfl

theorem decode_encode (c : DeviceClass) : decode .json (Doc.ofJson c.encode) = .ok c := by
  have hmetadata : decodeMetadata .json (Doc.ofJson c.encodeMetadata) = .ok (c.name, c.resourceVersion) :=
    Decoder.record_ofJson (((takes_pure Prod.mk).field (takes_field rfl) rfl).field
      (takes_version c.resourceVersion) rfl)
  exact Decoder.record_ofJson (((((takes_pure ofParts).field (takes_field rfl) rfl).field
    (takes_field rfl) rfl).field (takes_field hmetadata) rfl).field
    (takes_field c.spec.decode_encode) rfl)

/-- Whether the texts of a class read back as what they were written from: that of its specification, and
its file under any version. -/
structure ReadsBack (c : DeviceClass) : Prop where
  spec : Json.read (Text.symbolsOf c.spec.text) = ⟨Doc.ofJson c.spec.encode, true⟩
  file : ∀ version, Json.read (Text.symbolsOf { c with resourceVersion := version }.encode.pretty) =
    ⟨Doc.ofJson { c with resourceVersion := version }.encode, true⟩

variable {c d : DeviceClass}

theorem ReadsBack.withVersion (h : c.ReadsBack) (version : String) :
    { c with resourceVersion := version }.ReadsBack := ⟨h.spec, h.file⟩

theorem ReadsBack.decode_content (h : c.ReadsBack) :
    Json.decodeBytes decode (ManifestDirectory.content c) = .ok c := by
  rw [ManifestDirectory.content, Json.decodeBytes, Json.symbols_toUTF8, Json.decodeSymbols,
    h.file c.resourceVersion]
  simp only [c.decode_encode, if_true]
  rfl

theorem ReadsBack.text_eq_iff (hc : c.ReadsBack) (hd : d.ReadsBack) :
    c.spec.text = d.spec.text ↔ c.spec = d.spec := by
  constructor
  · intro htext
    have hread := hc.spec
    rw [htext, hd.spec] at hread
    have hdoc : Doc.ofJson d.spec.encode = Doc.ofJson c.spec.encode := congrArg Json.Reading.doc hread
    have hdecoded := c.spec.decode_encode
    rw [← hdoc, d.spec.decode_encode] at hdecoded
    exact (Except.ok.inj hdecoded).symm
  · intro hspec
    rw [hspec]

end DeviceClass

end Decoding

namespace FileTree

variable {t t' : FileTree} {here place : Place} {ns rest : List String} {lead path other : String}
  {content c : ByteArray}

theorem walk_append (hdir : t.node? place = some .directory) (hrest : rest ≠ [])
    (h : t.walk here ns = .ok place) : t.walk here (ns ++ rest) = t.walk place rest := by
  induction ns generalizing here with
  | nil =>
    cases h
    rfl
  | cons n ns ih =>
    have hmore : (ns ++ rest).isEmpty = false := by simp [hrest]
    rw [walk] at h
    rw [List.cons_append, walk, hmore, if_neg Bool.false_ne_true]
    split_ifs at h ⊢ with hstay hleave hlong hlast
    · exact ih h
    · exact ih h
    · have hplace : n :: here = place := Except.ok.inj h
      rw [List.isEmpty_iff.1 hlast, hplace, hdir]
      rfl
    · cases hnode : t.node? (n :: here) with
      | none =>
        rw [hnode] at h
        cases h
      | some node =>
        rw [hnode] at h
        cases node with
        | file content => cases h
        | directory => exact ih h

theorem pathNames_of_free {name : String} (hfree : '/' ∉ name.toList) (hne : name ≠ "") :
    pathNames name.toList = [name] := by
  have hsplit : Text.split (· == '/') name.toList = [name.toList] :=
    Text.split_of_free fun c hc => by
      rw [beq_eq_false_iff_ne]
      intro heq
      exact hfree (heq ▸ hc)
  rw [pathNames, hsplit]
  simp [hne]

theorem locate_child {name : String} (hplace : t.locate lead = .ok place)
    (hdir : t.node? place = some .directory) (hfree : '/' ∉ name.toList) (hnul : '\x00' ∉ name.toList)
    (hname : IsProper name) (hne : name ≠ "") (hshort : name.utf8ByteSize ≤ maxNameBytes)
    (hpath : (lead ++ "/" ++ name).utf8ByteSize < pathLimit) :
    t.locate (lead ++ "/" ++ name) = .ok (name :: place) := by
  obtain ⟨hleadNul, -, hwalk⟩ := locate_ok_iff.1 hplace
  have htext : (lead ++ "/" ++ name).toList = lead.toList ++ '/' :: name.toList := by simp
  refine locate_ok_iff.2 ⟨?_, hpath, ?_⟩
  · rw [htext]
    simp [hleadNul, hnul]
  · have hlast : t.walk place [name] = .ok (name :: place) := by
      rw [walk, if_neg hname.1, if_neg hname.2, if_neg (Nat.not_lt.2 hshort)]
      rfl
    rw [htext, pathNames_slash, pathNames_of_free hfree hne, walk_append hdir (by simp) hwalk, hlast]

theorem childName?_key {name : String} (hfree : '/' ∉ name.toList) :
    childName? place.key (Place.key (name :: place)) = some name := by
  have hlead : (Place.key (name :: place)).toList = (place.key.toList ++ ['/']) ++ name.toList := by
    simp [Place.key]
  have hcut : ((place.key.toList ++ ['/']) ++ name.toList).drop (place.key.toList ++ ['/']).length =
      name.toList := List.drop_left
  unfold childName?
  simp only [hlead, hcut]
  rw [if_pos]
  · rw [String.ofList_toList]
  · have hstart : (place.key.toList ++ ['/']).isPrefixOf ((place.key.toList ++ ['/']) ++ name.toList) = true :=
      List.isPrefixOf_iff_prefix.2 (List.prefix_append _ _)
    rw [hstart]
    simpa using hfree

theorem node?_of_list_nil (hlist : t.list lead = .ok []) : ∃ place, t.locate lead = .ok place ∧
    t.node? place = some .directory ∧ ∀ name, '/' ∉ name.toList → t.node? (name :: place) = none := by
  unfold list at hlist
  cases hplace : t.locate lead with
  | error e =>
    rw [hplace] at hlist
    cases hlist
  | ok place =>
    simp only [hplace] at hlist
    split at hlist
    · rename_i hdir
      have hnone : t.nodes.keys.filterMap (childName? place.key) = [] := Except.ok.inj hlist
      refine ⟨place, rfl, hdir, fun name hfree => Option.not_isSome_iff_eq_none.1 fun hnode => ?_⟩
      have hkey : Place.key (name :: place) ∈ t.nodes.keys := Dict.contains_iff.1 hnode
      have hmem := List.mem_filterMap.2 ⟨_, hkey, childName?_key hfree⟩
      rw [hnone] at hmem
      exact List.not_mem_nil hmem
    · cases hlist
    · cases hlist

end FileTree

namespace ManifestDirectory

open FileTree

variable {m : ManifestDirectory} {name other : String} {place : Place} {c : DeviceClass}

/-- Whether a class may be named so: its file and the one beside it have names of their own in the
directory, and neither they nor their paths are too long. -/
structure IsFileName (dir name : String) : Prop where
  slash : '/' ∉ name.toList
  nul : '\x00' ∉ name.toList
  short : (name ++ ".json.tmp").utf8ByteSize ≤ maxNameBytes
  path : (dir ++ "/" ++ (name ++ ".json.tmp")).utf8ByteSize < pathLimit

def IsFlat (m : ManifestDirectory) : Prop :=
  ∃ place, m.files.locate m.dir = .ok place ∧ m.files.node? place = some .directory ∧
    ∀ name, '/' ∉ name.toList → m.files.node? (name :: place) ≠ some .directory

theorem path_eq (hfree : '/' ∉ name.toList) : m.path name = m.dir ++ "/" ++ (name ++ ".json") := by
  refine if_neg fun hroot => ?_
  rw [String.toList_append] at hroot
  cases hname : name.toList with
  | nil =>
    rw [hname] at hroot
    exact absurd hroot (by decide)
  | cons x xs =>
    have hx : '/' = x := by simpa [hname] using hroot
    rw [hname, ← hx] at hfree
    exact hfree List.mem_cons_self

def endings : List String := [".json", ".json.tmp"]

theorem ending_free : ∀ ending ∈ endings,
    '/' ∉ ending.toList ∧ '\x00' ∉ ending.toList ∧ 2 < ending.length ∧
      ending.utf8ByteSize ≤ ".json.tmp".utf8ByteSize := by
  decide +kernel

theorem json_mem : ".json" ∈ endings := List.mem_cons_self

theorem beside_mem : ".json.tmp" ∈ endings := List.mem_cons_of_mem _ List.mem_cons_self

theorem IsFileName.locate_entry {ending : String} (h : IsFileName m.dir name) (hending : ending ∈ endings)
    (hplace : m.files.locate m.dir = .ok place) (hdir : m.files.node? place = some .directory) :
    m.files.locate (m.dir ++ "/" ++ (name ++ ending)) = .ok ((name ++ ending) :: place) := by
  obtain ⟨hslash, hnul, hlong, hsize⟩ := ending_free ending hending
  have hlength : 2 < (name ++ ending).length := by
    rw [String.length_append]
    omega
  have hshort := h.short
  have hpath := h.path
  simp only [String.utf8ByteSize_append] at hshort hpath
  refine locate_child hplace hdir (slash_free_append h.slash hslash) ?_ (isProper_of_length hlength) ?_ ?_ ?_
  · rw [String.toList_append, List.mem_append, not_or]
    exact ⟨h.nul, hnul⟩
  · intro hempty
    rw [hempty] at hlength
    exact absurd hlength (by decide)
  · rw [String.utf8ByteSize_append]
    omega
  · simp only [String.utf8ByteSize_append]
    omega

theorem path_beside (hfree : '/' ∉ name.toList) :
    m.path name ++ ".tmp" = m.dir ++ "/" ++ (name ++ ".json.tmp") := by
  have hending : ".json" ++ ".tmp" = ".json.tmp" := by decide +kernel
  rw [path_eq hfree, ← hending]
  simp only [String.append_assoc]

theorem IsFlat.replace_ok (hm : m.IsFlat) (h : IsFileName m.dir name) (bytes : ByteArray) :
    (m.files.replace (m.path name) bytes).1 = .ok () := by
  obtain ⟨place, hplace, hdir, hflat⟩ := hm
  have hfree : ∀ ending ∈ endings, m.files.node? ((name ++ ending) :: place) ≠ some .directory :=
    fun ending hending => hflat _ (slash_free_append h.slash (ending_free ending hending).1)
  have hfile := h.locate_entry json_mem hplace hdir
  have hbeside := h.locate_entry beside_mem hplace hdir
  rw [← path_eq h.slash] at hfile
  rw [← path_beside h.slash] at hbeside
  exact replace_ok_iff.2 ⟨_, _, hbeside, hfree _ beside_mem, hfile, hfree _ json_mem⟩

theorem write_eq (hm : m.IsFlat) (h : IsFileName m.dir c.name) :
    m.write c = (.ok (), ⟨m.dir, (m.files.replace (m.path c.name) (content c)).2⟩) := by
  have hok := hm.replace_ok h (content c)
  unfold write
  split
  · rename_i heq
    rw [heq] at hok
    cases hok
  · rename_i heq
    rw [heq]

theorem IsFlat.congr {files : FileTree} (hm : m.IsFlat) (hsame : m.files.SameDirectories files) :
    IsFlat ⟨m.dir, files⟩ := by
  obtain ⟨place, hplace, hdir, hflat⟩ := hm
  refine ⟨place, hsame.locate.2 hplace, (hsame place).2 hdir, fun name hname hnode => ?_⟩
  exact hflat name hname ((hsame _).1 hnode)

theorem IsFlat.write (hm : m.IsFlat) (h : IsFileName m.dir c.name) : (m.write c).2.IsFlat := by
  rw [write_eq hm h]
  exact hm.congr (replace_sameDirectories _ _ _)

theorem read_path_cases (hm : m.IsFlat) (h : IsFileName m.dir name) :
    (∃ bytes, m.files.read (m.path name) = .ok bytes) ∨ m.files.read (m.path name) = .error .missing := by
  obtain ⟨place, hplace, hdir, hflat⟩ := hm
  have hfile := h.locate_entry json_mem hplace hdir
  have hfree := hflat _ (slash_free_append h.slash (ending_free _ json_mem).1)
  rw [path_eq h.slash, FileTree.read, hfile]
  simp only
  cases hnode : m.files.node? ((name ++ ".json") :: place) with
  | none => exact .inr rfl
  | some node =>
    cases node with
    | directory => exact absurd hnode hfree
    | file bytes => exact .inl ⟨bytes, rfl⟩

theorem isFlat_of_empty (hempty : m.files.list m.dir = .ok []) : m.IsFlat := by
  obtain ⟨place, hplace, hdir, hnone⟩ := node?_of_list_nil hempty
  refine ⟨place, hplace, hdir, fun name hname => ?_⟩
  rw [hnone name hname]
  exact nofun

theorem get_of_empty (hempty : m.files.list m.dir = .ok []) (h : IsFileName m.dir name) :
    m.get name = .ok none := by
  obtain ⟨place, hplace, hdir, hnone⟩ := node?_of_list_nil hempty
  have hfile := h.locate_entry json_mem hplace hdir
  have hfree := slash_free_append h.slash (ending_free _ json_mem).1
  rw [get, path_eq h.slash, FileTree.read, hfile]
  simp only [hnone _ hfree]

theorem apart_entries {ending ending' : String} (h : IsFileName m.dir name) (h' : IsFileName m.dir other)
    (hending : ending ∈ endings) (hending' : ending' ∈ endings) (hne : name ++ ending ≠ other ++ ending')
    (t : FileTree) : t.Apart (m.dir ++ "/" ++ (name ++ ending)) (m.dir ++ "/" ++ (other ++ ending')) := by
  obtain ⟨hfree, -, hlong, -⟩ := ending_free ending hending
  obtain ⟨hfree', -, hlong', -⟩ := ending_free ending' hending'
  refine apart_append (slash_free_append h.slash hfree) (slash_free_append h'.slash hfree') ?_ ?_ hne
  · rw [String.length_append]
    exact Nat.lt_of_lt_of_le hlong (Nat.le_add_left _ _)
  · rw [String.length_append]
    exact Nat.lt_of_lt_of_le hlong' (Nat.le_add_left _ _)

theorem get_write (hm : m.IsFlat) (h : IsFileName m.dir c.name) (hc : c.ReadsBack) :
    (m.write c).2.get c.name = .ok (some c) := by
  have hread := read_replace (hm.replace_ok h (content c))
  have hpath : path ⟨m.dir, (m.files.replace (m.path c.name) (content c)).2⟩ c.name = m.path c.name := rfl
  rw [write_eq hm h, get, hpath]
  simp only [hread, hc.decode_content]

theorem apart_other (h : IsFileName m.dir name) (hother : IsFileName m.dir other) (hne : other ≠ name)
    (t : FileTree) : t.Apart (m.path other) (m.path name) := by
  rw [path_eq h.slash, path_eq hother.slash]
  apply apart_entries hother h json_mem json_mem
  intro heq
  exact hne ((String.append_left_inj _).1 heq)

theorem apart_beside (h : IsFileName m.dir name) (hother : IsFileName m.dir other) (t : FileTree) :
    t.Apart (m.path other) (m.path name ++ ".tmp") := by
  rw [path_beside h.slash, path_eq hother.slash]
  apply apart_entries hother h json_mem beside_mem
  intro heq
  have hlast := congrArg (fun s => s.toList.getLast?) heq
  simp at hlast

theorem get_congr {files : FileTree} (hm : m.IsFlat) (h : IsFileName m.dir name)
    (hsame : m.files.SameDirectories files)
    (hkeeps : ∀ bytes, files.read (m.path name) = .ok bytes ↔ m.files.read (m.path name) = .ok bytes) :
    get ⟨m.dir, files⟩ name = m.get name := by
  have hread : files.read (m.path name) = m.files.read (m.path name) := by
    rcases read_path_cases hm h with ⟨bytes, hok⟩ | hmissing
    · rw [hok, (hkeeps bytes).2 hok]
    · have hfile : (∃ bytes, files.read (m.path name) = .ok bytes) ∨
          files.read (m.path name) = .error .missing := read_path_cases (hm.congr hsame) h
      rcases hfile with ⟨bytes, hok⟩ | hmissing'
      · rw [hkeeps, hmissing] at hok
        cases hok
      · rw [hmissing, hmissing']
  have hpath : path ⟨m.dir, files⟩ name = m.path name := rfl
  rw [get, get, hpath, hread]

theorem get_write_other (hm : m.IsFlat) (h : IsFileName m.dir c.name) (hother : IsFileName m.dir other)
    (hne : other ≠ c.name) : (m.write c).2.get other = m.get other := by
  rw [write_eq hm h]
  apply get_congr hm hother (replace_sameDirectories _ _ _)
  intro bytes
  exact read_replace_other (apart_other h hother hne) (apart_beside h hother)

end ManifestDirectory

end SliceAgent
