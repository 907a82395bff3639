import SliceAgent.Claim.Basic
import SliceAgent.Proofs.ClassFiles
import SliceAgent.Proofs.RecordChanges

/-!
The written form of resource claims. A claim is read back from what it is written as, whether the keys of an
object stand in the order of the fields or are sorted. It is read from any other form that says the same: one
with keys that name no field, or without fields that say no more than absent ones
(`ResourceClaim.decode_written`).
-/
namespace SliceAgent

open Fields Decoder

namespace Assignment

def form : List FieldForm :=
  [.required "request" Unchanging, .required "driver" Unchanging, .required "pool" Unchanging,
    .required "device" Unchanging]

theorem decode_encode (r : Assignment) : decode .json (Doc.ofJson r.encode) = .ok r :=
  record_ofJson (((((takes_pure Assignment.mk).field (takes_field rfl) rfl).field (takes_field rfl) rfl).field
    (takes_field rfl) rfl).field (takes_field rfl) rfl)

theorem follows_form : fields.Follows form :=
  ((((follows_pure Assignment.mk).field (FieldForm.fits_required "request" (keeps_unchanging string))
    (by decide)).field (FieldForm.fits_required "driver" (keeps_unchanging string))
    (by decide)).field (FieldForm.fits_required "pool" (keeps_unchanging string))
    (by decide)).field (FieldForm.fits_required "device" (keeps_unchanging string)) (by decide)

theorem keeps_changes : decode.Keeps (RecordChange form) := keeps_record _ follows_form (by decide)

theorem keeps_sorting : decode.Keeps Sorting :=
  keeps_sorting_record _ (((((sorts_pure Assignment.mk).field keeps_sorting_string rfl).field
    keeps_sorting_string rfl).field keeps_sorting_string rfl).field keeps_sorting_string rfl)

end Assignment

namespace DriverParameters

/-- The parameters are taken as they are, whatever they say. -/
def form : List FieldForm := [.required "driver" Unchanging, .required "parameters" Unchanging]

theorem follows_form : fields.Follows form :=
  ((follows_pure DriverParameters.mk).field (FieldForm.fits_required "driver" (keeps_unchanging string))
    (by decide)).field (FieldForm.fits_required "parameters" (keeps_unchanging value)) (by decide)

theorem keeps_changes : decode.Keeps (RecordChange form) := keeps_record _ follows_form (by decide)

theorem keeps_sorting : decode.Keeps Sorting :=
  keeps_sorting_record _ (((sorts_pure DriverParameters.mk).field keeps_sorting_string rfl).field
    keeps_sorting_value rfl)

end DriverParameters

namespace ConfigEntry

def form : List FieldForm :=
  [.required "source" Unchanging, .list "requests" string Unchanging,
    .optional "opaque" DriverParameters.decode (RecordChange DriverParameters.form)]

theorem decode_encode (c : ConfigEntry) : decode .json (Doc.ofJson c.encode) = .ok c :=
  record_ofJson ((((takes_pure ConfigEntry.mk).field (takes_field rfl) rfl).field
    (takes_field (strs_ofJson c.requests)) rfl).field
    (takes_member? DriverParameters.decode_encode (fun _ => nofun) c.parameters) rfl)

theorem follows_form : fields.Follows form :=
  (((follows_pure ConfigEntry.mk).field (FieldForm.fits_required "source" (keeps_unchanging string))
    (by decide)).field (FieldForm.fits_defaulted "requests" [] (keeps_unchanging string.list))
    (by decide)).field (FieldForm.fits_defaulted "opaque" none
      (DriverParameters.keeps_changes.optional fun _ _ => RecordChange.null_iff)) (by decide)

theorem keeps_changes : decode.Keeps (RecordChange form) := keeps_record _ follows_form (by decide)

theorem keeps_sorting : decode.Keeps Sorting :=
  keeps_sorting_record _ ((((sorts_pure ConfigEntry.mk).field keeps_sorting_string rfl).field
    keeps_sorting_string.sorting_list rfl).field
    (DriverParameters.keeps_sorting.optional fun _ _ => Sorting.null_iff) rfl)

end ConfigEntry

namespace DeviceAllocation

def form : List FieldForm :=
  [.list "results" Assignment.decode (ListChange (RecordChange Assignment.form)),
    .list "config" ConfigEntry.decode (ListChange (RecordChange ConfigEntry.form))]

def resultForm : List FieldForm := [.defaulted "devices" decode empty (RecordChange form)]

theorem decode_encode (a : DeviceAllocation) : decode .json (Doc.ofJson a.encode) = .ok a :=
  record_ofJson (((takes_pure DeviceAllocation.mk).field
    (takes_field (list_ofJson Assignment.decode_encode a.results)) rfl).field
    (takes_field (list_ofJson ConfigEntry.decode_encode a.config)) rfl)

theorem decodeResult_encode (a : DeviceAllocation) : decodeResult .json (Doc.ofJson a.encodeResult) = .ok a :=
  record_ofJson ((takes_pure id).field (takes_field a.decode_encode) rfl)

theorem follows_form : fields.Follows form :=
  ((follows_pure DeviceAllocation.mk).field
    (FieldForm.fits_defaulted "results" [] Assignment.keeps_changes.list) (by decide)).field
    (FieldForm.fits_defaulted "config" [] ConfigEntry.keeps_changes.list) (by decide)

theorem keeps_changes : decode.Keeps (RecordChange form) := keeps_record _ follows_form (by decide)

theorem keeps_changes_result : decodeResult.Keeps (RecordChange resultForm) :=
  keeps_record _ ((follows_pure id).field (FieldForm.fits_defaulted "devices" empty keeps_changes) (by decide))
    (by decide)

theorem keeps_sorting : decode.Keeps Sorting :=
  keeps_sorting_record _ (((sorts_pure DeviceAllocation.mk).field Assignment.keeps_sorting.sorting_list
    rfl).field ConfigEntry.keeps_sorting.sorting_list rfl)

theorem keeps_sorting_result : decodeResult.Keeps Sorting :=
  keeps_sorting_record _ ((sorts_pure id).field keeps_sorting rfl)

end DeviceAllocation

namespace ResourceClaim

def statusForm : List FieldForm :=
  [.optional "allocation" DeviceAllocation.decodeResult (RecordChange DeviceAllocation.resultForm)]

def form : List FieldForm :=
  [.required "uid" Unchanging, .defaulted "namespace" string "" Unchanging,
    .defaulted "name" string "" Unchanging, .defaulted "status" decodeStatus none (RecordChange statusForm)]

theorem decodeStatus_encode (allocation : Option DeviceAllocation) :
    decodeStatus .json (Doc.ofJson (encodeStatus allocation)) = .ok allocation :=
  record_ofJson ((takes_pure id).field
    (takes_member? DeviceAllocation.decodeResult_encode (fun _ => nofun) allocation) rfl)

theorem decode_encode (c : ResourceClaim) : decode .json (Doc.ofJson c.encode) = .ok c :=
  record_ofJson (((((takes_pure ResourceClaim.mk).field (takes_field rfl) rfl).field (takes_field rfl) rfl).field
    (takes_field rfl) rfl).field (takes_field (decodeStatus_encode c.allocation)) rfl)

theorem keeps_changes_status : decodeStatus.Keeps (RecordChange statusForm) :=
  keeps_record _ ((follows_pure id).field (FieldForm.fits_defaulted "allocation" none
    (DeviceAllocation.keeps_changes_result.optional fun _ _ => RecordChange.null_iff)) (by decide)) (by decide)

theorem follows_form : fields.Follows form :=
  ((((follows_pure ResourceClaim.mk).field (FieldForm.fits_required "uid" (keeps_unchanging string))
    (by decide)).field (FieldForm.fits_defaulted "namespace" "" (keeps_unchanging string))
    (by decide)).field (FieldForm.fits_defaulted "name" "" (keeps_unchanging string))
    (by decide)).field (FieldForm.fits_defaulted "status" none keeps_changes_status) (by decide)

theorem keeps_changes : decode.Keeps (RecordChange form) := keeps_record _ follows_form (by decide)

theorem keeps_sorting_status : decodeStatus.Keeps Sorting :=
  keeps_sorting_record _ ((sorts_pure id).field
    (DeviceAllocation.keeps_sorting_result.optional fun _ _ => Sorting.null_iff) rfl)

theorem keeps_sorting : decode.Keeps Sorting :=
  keeps_sorting_record _ (((((sorts_pure ResourceClaim.mk).field keeps_sorting_string rfl).field
    keeps_sorting_string rfl).field keeps_sorting_string rfl).field keeps_sorting_status rfl)

/-- A claim is read back from what it is written as, and whatever it is read from, it is read as well after
any number of changes: keys that name no field come or change in an object at any depth, the parameters of
drivers apart, and fields that read as what stands for an absent one are left out. -/
theorem decode_written :
    (∀ c : ResourceClaim, decode .json (Doc.ofJson c.encode) = .ok c ∧
      decode .json (Doc.ofJson c.encode.canonical) = .ok c) ∧
    ∀ (j j' : Json) (c : ResourceClaim), Relation.ReflTransGen (RecordChange form) j j' →
      decode .json (Doc.ofJson j) = .ok c → decode .json (Doc.ofJson j') = .ok c :=
  ⟨fun c => ⟨c.decode_encode, keeps_sorting rfl c.decode_encode⟩,
    fun _ _ _ hchanges hread => keeps_changes.steps hchanges hread⟩

def nullParametersClaim : ResourceClaim :=
  ⟨"c-1", "", "", some ⟨[⟨"npu", "npu.example.com", "node-a", "npu-0-0"⟩],
    [⟨"FromClass", [], some ⟨"npu.example.com", .null⟩⟩]⟩⟩

def nullParametersDevices (device config : List (String × Json)) : Json :=
  .obj [("results", .arr [.obj ([("request", .str "npu"), ("driver", .str "npu.example.com"),
      ("pool", .str "node-a"), ("device", .str "npu-0-0")] ++ device)]),
    ("config", .arr [.obj ([("source", .str "FromClass")] ++ config ++ [("opaque", .obj
      [("driver", .str "npu.example.com"), ("parameters", .null)])])])]

def nullParametersForm (members : List (String × Json)) (devices : Json) : Json :=
  .obj ([("uid", .str "c-1")] ++ members ++
    [("status", .obj [("allocation", .obj [("devices", devices)])])])

theorem decode_written_nullParameters :
    Relation.ReflTransGen (RecordChange form) nullParametersClaim.encode
      (nullParametersForm [("name", .str "")] (nullParametersDevices [("adminAccess", .bool true)] [])) ∧
    decode .json (Doc.ofJson nullParametersClaim.encode) = .ok nullParametersClaim ∧
    decode .json (Doc.ofJson (nullParametersForm [("name", .str "")]
      (nullParametersDevices [("adminAccess", .bool true)] []))) = .ok nullParametersClaim := by
  have hdevices : ∀ {members : List (String × Json)} {j j' : Json}, RecordChange DeviceAllocation.form j j' →
      RecordChange form (nullParametersForm members j) (nullParametersForm members j') :=
    fun h => .members (.inside _ [] (.tail _ (.tail _ (.tail _ (.head _))))
      (.members (.inside [] [] (.head _) (.members (.inside [] [] (.head _) h)))))
  have hnamespace : RecordChange form nullParametersClaim.encode
      (nullParametersForm [("name", .str "")] (nullParametersDevices [] [("requests", .arr [])])) :=
    .members (.leaveOut [("uid", .str "c-1")] _ (.tail _ (.head _)) rfl)
  have hdevice : RecordChange DeviceAllocation.form (nullParametersDevices [] [("requests", .arr [])])
      (nullParametersDevices [("adminAccess", .bool true)] [("requests", .arr [])]) :=
    .members (.inside [] _ (.head _) (.item [] [] (.members (.add _ [] (.bool true) (by decide)))))
  have hrequests : RecordChange DeviceAllocation.form
      (nullParametersDevices [("adminAccess", .bool true)] [("requests", .arr [])])
      (nullParametersDevices [("adminAccess", .bool true)] []) :=
    .members (.inside [_] [] (.tail _ (.head _))
      (.item [] [] (.members (.leaveOut [("source", .str "FromClass")] _ (.tail _ (.head _)) rfl))))
  have hchanges := ((Relation.ReflTransGen.single hnamespace).tail (hdevices hdevice)).tail
    (hdevices hrequests)
  obtain ⟨hback, hchanged⟩ := decode_written
  have hread := (hback nullParametersClaim).1
  exact ⟨hchanges, hread, hchanged _ _ _ hchanges hread⟩

end ResourceClaim

end SliceAgent
