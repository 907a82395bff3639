import SliceAgent.Checkpoint.Store
import SliceAgent.Proofs.FieldsLaws

/-!
A stored checkpoint is read back as it was stored (`CheckpointStore.get_put`), whatever its claims and
their devices are called.
-/
namespace SliceAgent

namespace Json

variable {α : Type} {n : Nat} {ms ns : List (String × Json)}

theorem membersPlain_append : membersPlain n (ms ++ ns) = (membersPlain n ms && membersPlain n ns) := by
  induction ms with
  | nil => rfl
  | cons m ms ih => rw [List.cons_append, membersPlain, membersPlain, ih, Bool.and_assoc]

theorem plainWithin_items {f : α → Json} (h : ∀ a, plainWithin n (f a) = true) (as : List α) :
    plainWithin (n + 1) (.arr (as.map f)) = true := by
  refine itemsPlain_iff.2 fun j hj => ?_
  obtain ⟨a, _, rfl⟩ := List.mem_map.1 hj
  exact h a

theorem plainWithin_strs (ss : List String) : plainWithin (n + 1) (.strs ss) = true :=
  plainWithin_items (fun _ => by rw [plainWithin]) ss

theorem plainWithin_ofDict {f : α → Json} (h : ∀ a, plainWithin n (f a) = true) (d : Dict α) :
    plainWithin (n + 1) (.ofDict f d) = true := by
  refine membersPlain_iff.2 fun m hm => ?_
  obtain ⟨e, _, rfl⟩ := List.mem_map.1 hm
  exact h e.2

theorem membersPlain_member? {f : α → Json} (h : ∀ a, plainWithin n (f a) = true) (k : String)
    (b : Option α) : membersPlain n (member? k f b) = true := by
  cases b with
  | none => rfl
  | some a => simp [member?, membersPlain, h a]

theorem membersPlain_memberList {f : α → Json} (h : ∀ a, plainWithin n (f a) = true) (k : String)
    (as : List α) : membersPlain (n + 1) (memberList k f as) = true := by
  cases as with
  | nil => rfl
  | cons a as => simp [memberList, membersPlain, -List.map_cons, plainWithin_items h (a :: as)]

theorem plainWithin_str (s : String) : plainWithin n (.str s) = true := by
  rw [plainWithin]

end Json

section Edits

open Json Fields

theorem DeviceNode.decode_encode (d : DeviceNode) : decode .json (Doc.ofJson d.encode) = .ok d :=
  Decoder.record_ofJson ((((takes_pure DeviceNode.mk).field (takes_field rfl) rfl).field
    (takes_member? (fun _ => rfl) (fun _ => Doc.noConfusion) d.nodeType) rfl).field
    (takes_member? (fun _ => rfl) (fun _ => Doc.noConfusion) d.permissions) rfl)

theorem Hook.decode_encode (h : Hook) : decode .json (Doc.ofJson h.encode) = .ok h :=
  Decoder.record_ofJson ((((takes_pure Hook.mk).field (takes_field rfl) rfl).field
    (takes_field rfl) rfl).field (takes_memberList (fun _ => rfl) h.args) rfl)

theorem Mount.decode_encode (m : Mount) : decode .json (Doc.ofJson m.encode) = .ok m :=
  Decoder.record_ofJson ((((takes_pure Mount.mk).field (takes_field rfl) rfl).field
    (takes_field rfl) rfl).field (takes_memberList (fun _ => rfl) m.options) rfl)

theorem ContainerEdits.decode_encode (e : ContainerEdits) :
    decode .json (Doc.ofJson e.encode) = .ok e :=
  Decoder.record_ofJson (((((takes_pure ContainerEdits.mk).field
    (takes_memberList (fun _ => rfl) e.env) rfl).field
    (takes_memberList DeviceNode.decode_encode e.deviceNodes) rfl).field
    (takes_memberList Hook.decode_encode e.hooks) rfl).field
    (takes_memberList Mount.decode_encode e.mounts) rfl)

theorem DeviceNode.plain (d : DeviceNode) : plainWithin 2 d.encode = true := by
  simp only [encode, plainWithin, List.cons_append, membersPlain, membersPlain_append,
    membersPlain_member? plainWithin_str, Bool.and_self]

theorem Hook.plain (h : Hook) : plainWithin 2 h.encode = true := by
  simp only [encode, plainWithin, List.cons_append, List.nil_append, membersPlain,
    membersPlain_memberList plainWithin_str, Bool.and_self]

theorem Mount.plain (m : Mount) : plainWithin 2 m.encode = true := by
  simp only [encode, plainWithin, List.cons_append, List.nil_append, membersPlain,
    membersPlain_memberList plainWithin_str, Bool.and_self]

theorem ContainerEdits.plain (e : ContainerEdits) : plainWithin 4 e.encode = true := by
  simp only [encode, plainWithin, membersPlain_append, membersPlain_memberList plainWithin_str,
    membersPlain_memberList DeviceNode.plain, membersPlain_memberList Hook.plain,
    membersPlain_memberList Mount.plain, Bool.and_self]

end Edits

section Record

open Json Fields

theorem Device.takes_members (d : Device) : Device.fields.Takes d.members d :=
  ((((takes_pure Device.mk).field (takes_field (Decoder.strs_ofJson d.requestNames)) rfl).field
    (takes_field rfl) rfl).field (takes_field rfl) rfl).field
    (takes_field (Decoder.strs_ofJson d.cdiDeviceIds)) rfl

theorem PreparedDevice.splitEdits_other {k : String} {j : Json} {ms : List (String × Json)}
    {e e' : Option ContainerEdits} {rest : List (Doc × Doc)} (hk : k ≠ "containerEdits")
    (h : splitEdits .json e (Doc.ofMembers ms) = .ok (e', rest)) :
    splitEdits .json e (Doc.ofMembers ((k, j) :: ms)) =
      .ok (e', (.str k, Doc.ofJson j) :: rest) := by
  rw [Doc.ofMembers, splitEdits, Doc.value?_ofJson, h]
  · rfl
  · exact hk

theorem PreparedDevice.splitEdits_append {ms : List (String × Json)} (e : ContainerEdits)
    (hms : ∀ m ∈ ms, m.1 ≠ "containerEdits") :
    splitEdits .json none (Doc.ofMembers (ms ++ [("containerEdits", e.encode)])) =
      .ok (some e, Doc.ofMembers ms) := by
  induction ms with
  | nil =>
    show (ContainerEdits.decode .json (Doc.ofJson e.encode) >>= fun e => .ok (some e, [])) = _
    rw [e.decode_encode]
    rfl
  | cons m ms ih =>
    exact splitEdits_other (hms m List.mem_cons_self)
      (ih fun m hm => hms m (List.mem_cons_of_mem _ hm))

theorem Device.members_keys (d : Device) : ∀ m ∈ d.members, m.1 ≠ "containerEdits" := by
  simp [members]

theorem PreparedDevice.decode_encode (p : PreparedDevice) :
    decode .json (Doc.ofJson p.encode) = .ok p := by
  obtain ⟨draft, hread, hbuild⟩ := p.device.takes_members.reads
  have hdevice : Device.fields.fromMembers .json (Doc.ofMembers p.device.members) = .ok p.device := by
    rw [fromMembers, hread]
    exact hbuild
  show (splitEdits .json none (Doc.ofMembers (p.device.members ++ _)) >>= _) = _
  rw [splitEdits_append p.edits p.device.members_keys]
  show (Device.fields.fromMembers .json (Doc.ofMembers p.device.members) >>= _) = _
  rw [hdevice]
  rfl

theorem PreparedDevice.plain (p : PreparedDevice) : plainWithin 5 p.encode = true := by
  simp only [encode, Device.members, plainWithin, List.cons_append, List.nil_append, membersPlain,
    plainWithin_strs, p.edits.plain, Bool.and_self]

theorem Checkpoint.decode_encode (c : Checkpoint) : decode .json (Doc.ofJson c.encode) = .ok c :=
  Decoder.record_ofJson (((takes_pure Checkpoint.mk).field (takes_field rfl) rfl).field
    (takes_field (Decoder.dict_ofJson (Decoder.list_ofJson PreparedDevice.decode_encode) c.claims)) rfl)

theorem Checkpoint.plain (c : Checkpoint) : plainWithin 8 c.encode = true := by
  simp only [encode, encodeClaims, plainWithin, membersPlain,
    plainWithin_ofDict (plainWithin_items PreparedDevice.plain), Bool.and_self]

theorem Envelope.decode_encode (e : Envelope) : decode .json (Doc.ofJson e.encode) = .ok e :=
  Decoder.record_ofJson (((takes_pure Envelope.mk).field (takes_field rfl) rfl).field
    (takes_field rfl) rfl)

theorem Envelope.plain (e : Envelope) : plainWithin 1 e.encode = true := by
  simp only [encode, plainWithin, membersPlain, Bool.and_self]

theorem Envelope.isIntact_around (body : String) : (Envelope.around body).isIntact = true :=
  beq_self_eq_true _

theorem Checkpoint.ofRecord_record (c : Checkpoint) : ofRecord c.record = .ok c := by
  rw [ofRecord, record, decodeBytes_compact _ (Envelope.plain _) (by decide), Envelope.decode_encode]
  simp only [Envelope.isIntact_around, if_true]
  rw [Envelope.around, body, decodeText_compact _ c.plain (by decide), c.decode_encode]

end Record

namespace CheckpointStore

theorem get_put (s : CheckpointStore) (name : String) (c : Checkpoint) :
    (s.put name c).get name = .ok c := by
  rw [get, put, putRecord, Dict.find?_insert, if_pos rfl]
  simp only [c.ofRecord_record]

end CheckpointStore

end SliceAgent
