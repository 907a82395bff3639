import SliceAgent.Cdi
import SliceAgent.Proofs.CheckpointText
import SliceAgent.Proofs.FilePlaces
import SliceAgent.Proofs.JsonLayout

/-!
The files of specifications: what is written to one is read back from it, and those of different names
do not touch each other, as long as no directory stands where one of them would.
-/
namespace SliceAgent

section Content

open Json Fields

theorem CdiDevice.decode_encode (d : CdiDevice) : decode .json (Doc.ofJson d.encode) = .ok d :=
  Decoder.record_ofJson (((takes_pure CdiDevice.mk).field (takes_field rfl) rfl).field
    (takes_field d.edits.decode_encode) rfl)

theorem CdiDevice.plain (d : CdiDevice) : plainWithin 5 d.encode = true := by
  simp only [encode, plainWithin, membersPlain, d.edits.plain, Bool.and_self]

theorem CdiSpec.decode_encode (s : CdiSpec) : decode .json (Doc.ofJson s.encode) = .ok s :=
  Decoder.record_ofJson ((((takes_pure CdiSpec.mk).field (takes_field rfl) rfl).field
    (takes_field rfl) rfl).field
    (takes_field (Decoder.list_ofJson CdiDevice.decode_encode s.devices)) rfl)

theorem CdiSpec.plain (s : CdiSpec) : plainWithin 7 s.encode = true := by
  have hdevices := plainWithin_items CdiDevice.plain s.devices
  rw [plainWithin] at hdevices
  simp only [encode, plainWithin, membersPlain, hdevices, Bool.and_self]

theorem CdiSpec.decodeBytes_content (s : CdiSpec) : decodeBytes decode s.content = .ok s := by
  rw [content, decodeBytes_pretty _ s.plain (by decide), s.decode_encode]

theorem ContainerEdits.foldl_append (es : List ContainerEdits) (e : ContainerEdits) :
    es.foldl append e = ⟨e.env ++ es.flatMap (·.env), e.deviceNodes ++ es.flatMap (·.deviceNodes),
      e.hooks ++ es.flatMap (·.hooks), e.mounts ++ es.flatMap (·.mounts)⟩ := by
  induction es generalizing e with
  | nil => simp
  | cons f es ih =>
    rw [List.foldl_cons, ih, append]
    simp

theorem ContainerEdits.concat_eq (es : List ContainerEdits) :
    concat es = ⟨es.flatMap (·.env), es.flatMap (·.deviceNodes), es.flatMap (·.hooks),
      es.flatMap (·.mounts)⟩ := by
  rw [concat, foldl_append]
  simp [none]

end Content

namespace CdiRoot

open FileTree

variable {r : CdiRoot} {t t' : FileTree} {name other : String} {place : Place}
  {edits : ContainerEdits} {content : ByteArray}

def specTail (name : String) : String := "-npu_" ++ name ++ ".json"

theorem specPath_eq (r : CdiRoot) (name : String) :
    r.specPath name = (r.root ++ "/" ++ r.vendor) ++ specTail name := by
  simp only [specPath, specTail, String.append_assoc]

/-- No directory stands among the files of specifications, under a name that one of them could begin
with. -/
def IsClear (r : CdiRoot) (t : FileTree) : Prop :=
  ∀ name place, '/' ∉ name.toList →
    t.locate (r.root ++ "/" ++ r.vendor ++ ("-npu_" ++ name)) = .ok place →
    t.node? place ≠ some .directory

theorem IsClear.congr (h : r.IsClear t) (hsame : t.SameDirectories t') : r.IsClear t' := by
  intro name place hname hplace hdir
  exact h name place hname (hsame.locate.1 hplace) ((hsame place).1 hdir)

/-- Whether a name has a place for a specification only if there is no slash in it. -/
def IsFlat (r : CdiRoot) (t : FileTree) (name : String) : Prop :=
  ∀ rest place, '/' ∉ rest.toList → t.locate (r.specPath name ++ rest) = .ok place → '/' ∉ name.toList

theorem isFlat_of_slash_free (h : '/' ∉ name.toList) : r.IsFlat t name := fun _ _ _ _ => h

theorem IsClear.isFlat (h : r.IsClear t) (name : String) : r.IsFlat t name := by
  intro rest place hrest hplace hslash
  obtain ⟨as, bs, hname, has⟩ := List.eq_append_cons_of_mem hslash
  have hsplit : name = String.ofList as ++ "/" ++ String.ofList bs :=
    String.toList_inj.1 (by simp [hname])
  have hpath : r.specPath name ++ rest = r.root ++ "/" ++ r.vendor ++
      ("-npu_" ++ String.ofList as) ++ "/" ++ (String.ofList bs ++ (".json" ++ rest)) := by
    rw [specPath, hsplit]
    simp only [String.append_assoc]
  have hbehind : pathNames (String.ofList bs ++ (".json" ++ rest)).toList ≠ [] := by
    obtain ⟨init, last, _, hnames⟩ := pathNames_append (String.ofList bs)
    rw [hnames (".json" ++ rest)]
    · simp
    · exact fun h => by simpa using congrArg String.length h
    · simpa using hrest
  have hlong : 2 < ("-npu_" ++ String.ofList as).length := by
    rw [String.length_append]
    exact Nat.lt_of_lt_of_le (by decide) (Nat.le_add_right _ _)
  rw [hpath] at hplace
  -- what stands before the slash would have to be a directory
  obtain ⟨q, hq, hdir⟩ := locate_slash (by simpa using has) hlong hbehind hplace
  exact h (String.ofList as) q (by simpa using has) hq hdir

theorem specTail_inj (h : specTail name = specTail other) : name = other := by
  have hlist := congrArg String.toList h
  simp only [specTail, String.toList_append, List.append_cancel_left_eq,
    List.append_cancel_right_eq] at hlist
  exact String.toList_inj.1 hlist

theorem specTail_ne_beside : specTail name ≠ specTail other ++ ".tmp" := by
  intro h
  have hlast := congrArg (fun s => s.toList.reverse.head?) h
  simp [specTail] at hlast

theorem specTail_free (h : '/' ∉ name.toList) : '/' ∉ (specTail name).toList := by
  simpa [specTail] using h

theorem specTail_long (name : String) : 2 < (specTail name).length := by
  simp only [specTail, String.length_append]
  exact Nat.lt_of_lt_of_le (by decide) (Nat.le_add_left _ _)

theorem IsFlat.apart (h : r.IsFlat t name) (h' : r.IsFlat t other) (hne : name ≠ other) :
    t.Apart (r.specPath name) (r.specPath other) := by
  intro p q hp hq
  have hname := h "" p (by simp) (by simpa using hp)
  have hother := h' "" q (by simp) (by simpa using hq)
  rw [specPath_eq] at hp hq
  exact apart_append (specTail_free hname) (specTail_free hother) (specTail_long name)
    (specTail_long other) (fun heq => hne (specTail_inj heq)) p q hp hq

theorem IsFlat.apart_beside (h : r.IsFlat t name) (h' : r.IsFlat t other) :
    t.Apart (r.specPath name) (r.specPath other ++ ".tmp") := by
  intro p q hp hq
  have hname := h "" p (by simp) (by simpa using hp)
  have hother := h' ".tmp" q (by decide) hq
  rw [specPath_eq, String.append_assoc] at hq
  rw [specPath_eq] at hp
  refine apart_append (specTail_free hname) ?_ (specTail_long name) ?_ specTail_ne_beside p q hp hq
  · rw [String.toList_append, List.mem_append, not_or]
    exact ⟨specTail_free hother, by decide⟩
  · rw [String.length_append]
    exact Nat.lt_of_lt_of_le (specTail_long other) (Nat.le_add_right _ _)

theorem IsClear.apart (h : r.IsClear t) (hne : name ≠ other) :
    t.Apart (r.specPath name) (r.specPath other) := (h.isFlat name).apart (h.isFlat other) hne

theorem IsClear.apart_beside (h : r.IsClear t) :
    t.Apart (r.specPath name) (r.specPath other ++ ".tmp") :=
  (h.isFlat name).apart_beside (h.isFlat other)

theorem read_of_write (hok : (r.write t name edits).1 = .ok ()) :
    (r.write t name edits).2.read (r.specPath name) = .ok (r.spec name edits).content := by
  unfold write at hok ⊢
  cases hw : t.replace (r.specPath name) (r.spec name edits).content with
  | mk result files =>
    rw [hw] at hok
    cases result with
    | error e => cases hok
    | ok u =>
      have hread := read_replace (congrArg Prod.fst hw)
      rwa [hw] at hread

theorem read_of_content (h : t.read (r.specPath name) = .ok (r.spec name edits).content) :
    r.read t name = .ok (r.spec name edits) := by
  rw [read, h]
  simp only [CdiSpec.decodeBytes_content]

end CdiRoot

end SliceAgent
