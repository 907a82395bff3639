import SliceAgent.Proofs.CheckpointText

/-!
What the store makes of a record. A checksum is a digest spelled in small hexadecimal digits, and each
digest has one such spelling (`Sha256.hexDigest_eq_iff`). A record reads as a checkpoint if it is an
envelope under the digest of its own text and that text is the checkpoint's, and every other record is
found out (`CheckpointStore.get_recorded`).
-/
namespace SliceAgent

namespace Text

def IsSmallHex (c : Char) : Prop := ('0' ≤ c ∧ c ≤ '9') ∨ ('a' ≤ c ∧ c ≤ 'f')

instance : DecidablePred IsSmallHex := fun _ => inferInstanceAs (Decidable (_ ∨ _))

variable {c : Char} {n : Nat} {cs : List Char} {bs : List UInt8}

theorem isSmallHex_hexDigit (n : Nat) : IsSmallHex (hexDigit n) := by
  have hdigits : ∀ k < 16, IsSmallHex (Nat.digitChar k) := by decide
  exact hdigits _ (Nat.mod_lt _ (by decide))

theorem hexValue?_hexDigit (n : Nat) : hexValue? (hexDigit n) = some (n % 16) := by
  have hdigits : ∀ k < 16, hexValue? (Nat.digitChar k) = some k := by decide
  exact hdigits _ (Nat.mod_lt _ (by decide))

theorem hexDigit_of_hexValue? (hc : IsSmallHex c) (h : hexValue? c = some n) :
    n < 16 ∧ hexDigit n = c := by
  have hnine : ('9' : Char).toNat = '0'.toNat + 9 := rfl
  have hf : ('f' : Char).toNat = 'a'.toNat + 5 := rfl
  have hdecimal : ∀ k ≤ 9, hexDigit k = Char.ofNat ('0'.toNat + k) := by decide
  have hletter : ∀ k ≤ 5, hexDigit (k + 10) = Char.ofNat ('a'.toNat + k) := by decide
  -- A large letter may have the same value, but not a second small one.
  rcases hc with ⟨hlow, hhigh⟩ | ⟨hlow, hhigh⟩
  · rw [hexValue?, if_pos ⟨hlow, hhigh⟩] at h
    cases h
    have hle : '0'.toNat ≤ c.toNat := hlow
    have hge : c.toNat ≤ '9'.toNat := hhigh
    refine ⟨by omega, ?_⟩
    rw [hdecimal _ (by omega), Nat.add_sub_cancel' hle, Char.ofNat_toNat]
  · have hno : ¬ ('0' ≤ c ∧ c ≤ '9') := fun hd => absurd (Char.le_trans hlow hd.2) (by decide)
    rw [hexValue?, if_neg hno, if_pos ⟨hlow, hhigh⟩] at h
    cases h
    have hle : 'a'.toNat ≤ c.toNat := hlow
    have hge : c.toNat ≤ 'f'.toNat := hhigh
    refine ⟨by omega, ?_⟩
    rw [hletter _ (by omega), Nat.add_sub_cancel' hle, Char.ofNat_toNat]

theorem isSmallHex_of_mem_hexByte {b : UInt8} (hc : c ∈ hexByte b) : IsSmallHex c := by
  obtain ⟨n, rfl⟩ : ∃ n, hexDigit n = c := by
    rcases List.mem_cons.1 hc with h | h
    · exact ⟨_, h.symm⟩
    · exact ⟨_, (List.mem_singleton.1 h).symm⟩
  exact isSmallHex_hexDigit n

theorem bytesOfHex?_hexByte (b : UInt8) (cs : List Char) :
    bytesOfHex? (hexByte b ++ cs) = (bytesOfHex? cs).map (b :: ·) := by
  have hb : 16 * (b.toNat / 16 % 16) + b.toNat % 16 = b.toNat := by
    have hlt : b.toNat < 256 := b.toNat_lt
    omega
  show bytesOfHex? (hexDigit (b.toNat / 16) :: hexDigit b.toNat :: cs) = _
  rw [bytesOfHex?, hexValue?_hexDigit, hexValue?_hexDigit]
  cases bytesOfHex? cs with
  | none => rfl
  | some bs =>
    show some (UInt8.ofNat (16 * (b.toNat / 16 % 16) + b.toNat % 16) :: bs) = _
    rw [hb, UInt8.ofNat_toNat]
    rfl

theorem bytesOfHex?_hexBytes (bs : List UInt8) : bytesOfHex? (bs.flatMap hexByte) = some bs := by
  induction bs with
  | nil => rfl
  | cons b bs ih => rw [List.flatMap_cons, bytesOfHex?_hexByte, ih, Option.map_some]

theorem hexByte_ofNat {high low : Nat} (hhigh : high < 16) (hlow : low < 16) :
    hexByte (UInt8.ofNat (16 * high + low)) = [hexDigit high, hexDigit low] := by
  have hn : (UInt8.ofNat (16 * high + low)).toNat = 16 * high + low :=
    UInt8.toNat_ofNat_of_lt' (by show 16 * high + low < 256; omega)
  rw [hexByte, hn, hexDigit, hexDigit, hexDigit, hexDigit]
  congr 2
  · omega
  · congr 1
    omega

theorem hexBytes_of_bytesOfHex? (hcs : ∀ c ∈ cs, IsSmallHex c) (h : bytesOfHex? cs = some bs) :
    bs.flatMap hexByte = cs := by
  induction cs using bytesOfHex?.induct generalizing bs with
  | case1 =>
    cases h
    rfl
  | case2 c => cases h
  | case3 a b cs ih =>
    obtain ⟨ha, hb, hcs⟩ := by simpa only [List.forall_mem_cons] using hcs
    simp only [bytesOfHex?, Option.bind_eq_bind, Option.bind_eq_some_iff] at h
    obtain ⟨high, hhigh, low, hlow, rest, hrest, hbs⟩ := h
    cases hbs
    obtain ⟨hhighlt, hahigh⟩ := hexDigit_of_hexValue? ha hhigh
    obtain ⟨hlowlt, hblow⟩ := hexDigit_of_hexValue? hb hlow
    rw [List.flatMap_cons, hexByte_ofNat hhighlt hlowlt, hahigh, hblow, ih hcs hrest]
    rfl

end Text

namespace Sha256

def Collide (text other : String) : Prop :=
  text ≠ other ∧ digest text.toUTF8.toList = digest other.toUTF8.toList

variable {checksum text other : String}

theorem toList_hexDigest (text : String) :
    (hexDigest text).toList = (digest text.toUTF8.toList).flatMap Text.hexByte :=
  String.toList_ofList

theorem hexDigest_eq_iff :
    checksum = hexDigest text ↔ (∀ c ∈ checksum.toList, Text.IsSmallHex c) ∧
      Text.bytesOfHex? checksum.toList = some (digest text.toUTF8.toList) := by
  constructor
  · rintro rfl
    rw [toList_hexDigest]
    refine ⟨fun c hc => ?_, Text.bytesOfHex?_hexBytes _⟩
    obtain ⟨b, _, hcb⟩ := List.mem_flatMap.1 hc
    exact Text.isSmallHex_of_mem_hexByte hcb
  · rintro ⟨hsmall, hbytes⟩
    have hlist : checksum.toList = (hexDigest text).toList := by
      rw [toList_hexDigest, Text.hexBytes_of_bytesOfHex? hsmall hbytes]
    exact String.toList_inj.1 hlist

theorem collide_of_hexDigest_eq (hne : text ≠ other) (h : hexDigest text = hexDigest other) :
    Collide text other := by
  have htext := Text.bytesOfHex?_hexBytes (digest text.toUTF8.toList)
  have hother := Text.bytesOfHex?_hexBytes (digest other.toUTF8.toList)
  rw [← toList_hexDigest] at htext hother
  rw [h, hother] at htext
  exact ⟨hne, (Option.some.inj htext).symm⟩

example : hexDigest "abc" =
    "ba7816bf8f01cfea414140de5dae2223b00361a396177a9cb410ff61f20015ad" := by
  decide +kernel

end Sha256

/-- The checksum spells the digest of the text. -/
structure Envelope.Sealed (e : Envelope) : Prop where
  small : ∀ c ∈ e.checksum.toList, Text.IsSmallHex c
  digest : Text.bytesOfHex? e.checksum.toList = some (Sha256.digest e.body.toUTF8.toList)

theorem Envelope.isIntact_iff {e : Envelope} : e.isIntact = true ↔ e.Sealed := by
  have hchecksum : e.isIntact = true ↔ e.checksum = Sha256.hexDigest e.body := beq_iff_eq
  rw [hchecksum, Sha256.hexDigest_eq_iff]
  exact ⟨fun h => ⟨h.1, h.2⟩, fun h => ⟨h.small, h.digest⟩⟩

namespace Checkpoint

variable {bytes : ByteArray} {c : Checkpoint} {e : Envelope}

/-- The bytes are a sealed envelope with the text of the checkpoint in it. -/
def RecordedIn (c : Checkpoint) (bytes : ByteArray) : Prop :=
  ∃ e : Envelope, Json.decodeBytes Envelope.decode bytes = .ok e ∧ e.Sealed ∧
    Json.decodeText decode e.body = .ok c

theorem ofRecord_of_sealed (he : Json.decodeBytes Envelope.decode bytes = .ok e) (hs : e.Sealed) :
    ofRecord bytes =
      (Json.decodeText decode e.body).mapError fun err => .unreadable (err.message .json) := by
  rw [ofRecord, he]
  simp only [Envelope.isIntact_iff.2 hs, if_true]
  cases Json.decodeText decode e.body <;> rfl

theorem ofRecord_of_not_sealed (he : Json.decodeBytes Envelope.decode bytes = .ok e)
    (hs : ¬ e.Sealed) : ofRecord bytes = .error .mismatch := by
  rw [ofRecord, he]
  simp only [mt Envelope.isIntact_iff.1 hs, if_false, Bool.false_eq_true]

theorem ofRecord_eq_ok_iff : ofRecord bytes = .ok c ↔ c.RecordedIn bytes := by
  constructor
  · intro h
    cases he : Json.decodeBytes Envelope.decode bytes with
    | error err =>
      rw [ofRecord, he] at h
      cases h
    | ok e =>
      by_cases hs : e.Sealed
      · refine ⟨e, he, hs, ?_⟩
        rw [ofRecord_of_sealed he hs] at h
        cases hbody : Json.decodeText decode e.body with
        | error err =>
          rw [hbody] at h
          cases h
        | ok d =>
          rw [hbody] at h
          exact congrArg Except.ok (Except.ok.inj h)
      · rw [ofRecord_of_not_sealed he hs] at h
        cases h
  · rintro ⟨e, he, hs, hbody⟩
    rw [ofRecord_of_sealed he hs, hbody]
    rfl

theorem ofRecord_eq_mismatch_iff : ofRecord bytes = .error .mismatch ↔
    ∃ e : Envelope, Json.decodeBytes Envelope.decode bytes = .ok e ∧ ¬ e.Sealed := by
  constructor
  · intro h
    cases he : Json.decodeBytes Envelope.decode bytes with
    | error err =>
      rw [ofRecord, he] at h
      cases h
    | ok e =>
      refine ⟨e, rfl, fun hs => ?_⟩
      rw [ofRecord_of_sealed he hs] at h
      cases hbody : Json.decodeText decode e.body <;> rw [hbody] at h <;> cases h
  · rintro ⟨e, he, hs⟩
    exact ofRecord_of_not_sealed he hs

theorem ofRecord_error_of_forall (h : ∀ c : Checkpoint, ¬ c.RecordedIn bytes) :
    ∃ why, ofRecord bytes = .error why ∧ (why = .mismatch ↔
      ∃ e : Envelope, Json.decodeBytes Envelope.decode bytes = .ok e ∧ ¬ e.Sealed) := by
  cases hr : ofRecord bytes with
  | error why =>
    refine ⟨why, rfl, ?_⟩
    rw [← ofRecord_eq_mismatch_iff, hr]
    exact ⟨congrArg Except.error, Except.error.inj⟩
  | ok c => exact absurd (ofRecord_eq_ok_iff.1 hr) (h c)

theorem ofRecord_error_of_changed (he : Json.decodeBytes Envelope.decode bytes = .ok e)
    (hbody : e.body ≠ c.body) (hchecksum : e.checksum = (Envelope.around c.body).checksum) :
    ofRecord bytes = .error .mismatch ∨ Sha256.Collide e.body c.body := by
  by_cases hs : e.Sealed
  · have hown : e.checksum = Sha256.hexDigest e.body := Sha256.hexDigest_eq_iff.2 ⟨hs.small, hs.digest⟩
    have hsame : Sha256.hexDigest e.body = Sha256.hexDigest c.body := hown.symm.trans hchecksum
    exact .inr (Sha256.collide_of_hexDigest_eq hbody hsame)
  · exact .inl (ofRecord_of_not_sealed he hs)

end Checkpoint

namespace CheckpointStore

variable {s : CheckpointStore} {name other : String} {bytes : ByteArray} {c : Checkpoint}

theorem get_putRecord (s : CheckpointStore) (name : String) (bytes : ByteArray) :
    (s.putRecord name bytes).get name = (Checkpoint.ofRecord bytes).mapError (.corrupt name) := by
  rw [get, putRecord, Dict.find?_insert, if_pos rfl]
  cases h : Checkpoint.ofRecord bytes <;> simp only [h] <;> rfl

theorem get_putRecord_other (h : other ≠ name) :
    (s.putRecord name bytes).get other = s.get other := by
  rw [get, get, putRecord, Dict.find?_insert, if_neg h]

theorem get_putRecord_eq_ok_iff :
    (s.putRecord name bytes).get name = .ok c ↔ c.RecordedIn bytes := by
  rw [get_putRecord, ← Checkpoint.ofRecord_eq_ok_iff]
  cases Checkpoint.ofRecord bytes with
  | error why => exact ⟨nofun, nofun⟩
  | ok d => exact ⟨fun h => congrArg _ (Except.ok.inj h), fun h => congrArg _ (Except.ok.inj h)⟩

theorem get_putRecord_of_error {why : Corruption} (h : Checkpoint.ofRecord bytes = .error why) :
    (s.putRecord name bytes).get name = .error (.corrupt name why) := by
  rw [get_putRecord, h]
  rfl

/-- What is stored is read back and disturbs no other record. A record reads as a checkpoint exactly if
it is one's, and as corrupt otherwise. One whose text was changed is corrupt unless the checksum was
made to fit the new text or the texts collide. -/
theorem get_recorded (s : CheckpointStore) (name : String) :
    (∀ c : Checkpoint, (s.put name c).get name = .ok c ∧
      ∀ other, other ≠ name → (s.put name c).get other = s.get other) ∧
    (∀ (bytes : ByteArray) (c : Checkpoint),
      (s.putRecord name bytes).get name = .ok c ↔ c.RecordedIn bytes) ∧
    (∀ bytes : ByteArray, (∀ c : Checkpoint, ¬ c.RecordedIn bytes) →
      ∃ why, (s.putRecord name bytes).get name = .error (.corrupt name why) ∧ (why = .mismatch ↔
        ∃ e : Envelope, Json.decodeBytes Envelope.decode bytes = .ok e ∧ ¬ e.Sealed)) ∧
    (∀ (c : Checkpoint) (bytes : ByteArray) (e : Envelope),
      Json.decodeBytes Envelope.decode bytes = .ok e → e.body ≠ c.body →
      (∃ why, ((s.put name c).putRecord name bytes).get name = .error (.corrupt name why)) ∨
      (e.Sealed ∧ e.checksum ≠ (Envelope.around c.body).checksum) ∨
      Sha256.Collide e.body c.body) := by
  refine ⟨fun c => ⟨get_put s name c, fun other h => get_putRecord_other h⟩,
    fun bytes c => get_putRecord_eq_ok_iff, fun bytes h => ?_, fun c bytes e he hbody => ?_⟩
  · obtain ⟨why, hwhy, hmismatch⟩ := Checkpoint.ofRecord_error_of_forall h
    exact ⟨why, get_putRecord_of_error hwhy, hmismatch⟩
  · by_cases hchecksum : e.checksum = (Envelope.around c.body).checksum
    · rcases Checkpoint.ofRecord_error_of_changed he hbody hchecksum with hwhy | hcollide
      · exact .inl ⟨_, get_putRecord_of_error hwhy⟩
      · exact .inr (.inr hcollide)
    · by_cases hs : e.Sealed
      · exact .inr (.inl ⟨hs, hchecksum⟩)
      · exact .inl ⟨_, get_putRecord_of_error (Checkpoint.ofRecord_of_not_sealed he hs)⟩

def altered : Envelope :=
  ⟨(Envelope.around Checkpoint.new.body).checksum, ({ Checkpoint.new with version := "v2" }).body⟩

theorem hexDigest_altered :
    Sha256.hexDigest altered.body ≠ Sha256.hexDigest Checkpoint.new.body := by
  decide +kernel

theorem decodeBytes_altered :
    Json.decodeBytes Envelope.decode altered.encode.compact.toUTF8 = .ok altered := by
  rw [Json.decodeBytes_compact _ (Envelope.plain _) (by decide), Envelope.decode_encode]

theorem not_sealed_altered : ¬ altered.Sealed := by
  intro hs
  have hown : altered.checksum = Sha256.hexDigest altered.body :=
    Sha256.hexDigest_eq_iff.2 ⟨hs.small, hs.digest⟩
  exact hexDigest_altered hown.symm

theorem not_recordedIn_altered (c : Checkpoint) : ¬ c.RecordedIn altered.encode.compact.toUTF8 := by
  rintro ⟨e, he, hs, _⟩
  rw [decodeBytes_altered] at he
  cases he
  exact not_sealed_altered hs

theorem get_recorded_altered :
    let stored := empty.put Checkpoint.storedName .new
    let record := altered.encode.compact.toUTF8
    stored.get Checkpoint.storedName = .ok .new ∧
    stored.get "backup.json" = .error (.notFound "backup.json") ∧
    (∀ c : Checkpoint, ¬ c.RecordedIn record) ∧
    (stored.putRecord "backup.json" record).get "backup.json" =
      .error (.corrupt "backup.json" .mismatch) ∧
    Json.decodeBytes Envelope.decode record = .ok altered ∧ altered.body ≠ Checkpoint.new.body ∧
    ∃ why, (stored.putRecord Checkpoint.storedName record).get Checkpoint.storedName =
      .error (.corrupt Checkpoint.storedName why) := by
  have hbody : altered.body ≠ Checkpoint.new.body := by decide +kernel
  obtain ⟨hput, _, _, hchanged⟩ := get_recorded empty Checkpoint.storedName
  obtain ⟨_, _, hbad, _⟩ := get_recorded (empty.put Checkpoint.storedName .new) "backup.json"
  obtain ⟨hread, hothers⟩ := hput .new
  obtain ⟨why, hwhy, hmismatch⟩ := hbad _ not_recordedIn_altered
  cases hmismatch.2 ⟨altered, decodeBytes_altered, not_sealed_altered⟩
  refine ⟨hread, (hothers "backup.json" (by decide)).trans rfl, not_recordedIn_altered, hwhy,
    decodeBytes_altered, hbody, ?_⟩
  rcases hchanged .new _ altered decodeBytes_altered hbody with hcorrupt | ⟨_, hchecksum⟩ | hcollide
  · exact hcorrupt
  · exact absurd rfl hchecksum
  · have hsame : Sha256.hexDigest altered.body = Sha256.hexDigest Checkpoint.new.body := by
      rw [Sha256.hexDigest, Sha256.hexDigest, hcollide.2]
    exact absurd hsame hexDigest_altered

end CheckpointStore

end SliceAgent
