import CommitRisk.Archive.Container
import CommitRisk.Proofs.ModelLayouts

/-!
# Archives Are Read Back

An archive that was written passes every check of a reader that does not
concern the model: its checksum, its header and its sizes. What is left is to
read the model from the payload.

The header notes the size of the payload in four bytes. A payload that needs
more is noted as what is left of its size, and then the reader sees the front
of the payload only. So reading what was written comes down to `modelOfPayload`,
which says what becomes of a payload of any size; only up to the limit of the
reader is it the model that was written.

## Main definitions

* `modelOfPayload`: What is read from a payload of any size.
* `archiveOf`: An archive with given parts.

## Theorems

* `ofBytes_archiveOf`: The fields of a header that was written.
* `checksum_archiveOf`: The checksum of an archive that was written.
* `payload_archiveOf`: The payload of an archive that was written.
* `readArchive_writeArchive`: Reading what was written.
* `modelOfPayload_encodeModel`: A payload that is not too large.
-/

namespace CommitRisk

/-- What is read from a payload, whose size is noted in four bytes. -/
def modelOfPayload (payload : List UInt8) : Except ArchiveError PortableModel :=
  let noted := payload.length % 2 ^ 32
  if 2 ^ 30 < noted then .error (.tooLarge noted)
  else match takeModel (payload.take noted) with
    | some (m, _) => if m.forest.isFitted then .ok m else .error .notFitted
    | none => .error .malformed

/-- An archive with the given parts. -/
def archiveOf (description payload : List UInt8) : List UInt8 :=
  withChecksum (archiveHeader description.length payload.length ++ description ++ payload)

theorem archiveHeader_length (description payload : Nat) :
    (archiveHeader description payload).length = 32 := rfl

/-- The fields stand where the reader looks for them, whatever follows. -/
theorem ofBytes_archiveHeader (description payload : Nat) (rest : List UInt8) :
    ArchiveHeader.ofBytes (archiveHeader description payload ++ rest)
      = ⟨archiveMagic, 1, 0, forestKind, description % 2 ^ 32, payload % 2 ^ 32,
          payload % 2 ^ 32, 0⟩ := by
  have hwidth : 256 ^ 4 = 2 ^ 32 := by decide
  -- The header is a list of known length, so its fields can be read off.
  have hfields : ArchiveHeader.ofBytes (archiveHeader description payload ++ rest)
      = ⟨archiveMagic, 1, 0, forestKind, natOfBytes (lowFirst 4 description),
          natOfBytes (lowFirst 4 payload), natOfBytes (lowFirst 4 payload), 0⟩ := rfl
  rw [hfields, natOfBytes_lowFirst, natOfBytes_lowFirst, hwidth]

theorem withChecksum_length (bytes : List UInt8) :
    (withChecksum bytes).length = bytes.length + 4 := by
  rw [withChecksum, List.length_append, lowFirst_length]

theorem stored_eq_computed (bytes : List UInt8) :
    UInt32.ofNat (natAt (withChecksum bytes) bytes.length 4)
      = crc32 ((withChecksum bytes).take bytes.length) := by
  have hstored : (withChecksum bytes).drop bytes.length = lowFirst 4 (crc32 bytes).toNat := by
    rw [withChecksum, List.drop_left]
  have hbytes : (withChecksum bytes).take bytes.length = bytes := by
    rw [withChecksum, List.take_left]
  -- The checksum stands behind the bytes it is of, and four bytes hold it.
  have hfits : (crc32 bytes).toNat < 256 ^ 4 := (crc32 bytes).toNat_lt
  rw [natAt, hstored, hbytes, List.take_of_length_le (Nat.le_of_eq (lowFirst_length 4 _)),
    natOfBytes_lowFirst, Nat.mod_eq_of_lt hfits, UInt32.ofNat_toNat]

/-- The only fault a header that was written can have is a payload that is too
    large. -/
theorem fault?_archiveHeader (description noted size : Nat)
    (hsize : 32 + description + noted ≤ size) :
    ArchiveHeader.fault? ⟨archiveMagic, 1, 0, forestKind, description, noted, noted, 0⟩ size
      = if 2 ^ 30 < noted then some (.tooLarge noted) else none := by
  -- The kind is a known one and the one that is expected.
  have hkind : modelKinds.lookup forestKind = some "RandomForest" := by decide
  have hwhole : ¬ size < 32 + description + noted := by omega
  simp only [ArchiveHeader.fault?, hkind, ne_eq, not_true_eq_false, if_false, hwhole,
    Nat.lt_irrefl, Nat.not_lt_zero, OfNat.zero_ne_ofNat]
  rfl

theorem archiveOf_length (description payload : List UInt8) :
    (archiveOf description payload).length = 32 + description.length + payload.length + 4 := by
  rw [archiveOf, withChecksum_length, List.length_append, List.length_append,
    archiveHeader_length]

theorem ofBytes_archiveOf (description payload : List UInt8) :
    ArchiveHeader.ofBytes (archiveOf description payload)
      = ⟨archiveMagic, 1, 0, forestKind, description.length % 2 ^ 32, payload.length % 2 ^ 32,
          payload.length % 2 ^ 32, 0⟩ := by
  rw [archiveOf, withChecksum, List.append_assoc, List.append_assoc, ofBytes_archiveHeader]

/-- Behind the description stands the payload, as much of it as is noted. -/
theorem payload_archiveOf (description payload : List UInt8) (noted : Nat)
    (hnoted : noted ≤ payload.length) :
    ((archiveOf description payload).drop (32 + description.length)).take noted
      = payload.take noted := by
  have hfront : 32 + description.length
      = (archiveHeader description.length payload.length ++ description).length := by
    rw [List.length_append, archiveHeader_length]
  rw [hfront, archiveOf, withChecksum, List.append_assoc _ payload, List.drop_left,
    List.take_append_of_le_length hnoted]

theorem checksum_archiveOf (description payload : List UInt8) :
    UInt32.ofNat (natAt (archiveOf description payload)
        (32 + description.length + payload.length) 4)
      = crc32 ((archiveOf description payload).take
          (32 + description.length + payload.length)) := by
  have hlength : (archiveHeader description.length payload.length ++ description ++ payload).length
      = 32 + description.length + payload.length := by
    rw [List.length_append, List.length_append, archiveHeader_length]
  rw [← hlength]
  exact stored_eq_computed _

/-- Reading what was written finds what is to be found in the payload. -/
theorem readArchive_writeArchive (createdAt : String) (label : ArchiveLabel) (m : PortableModel)
    (hlabel : (describeArchive createdAt label).length < 2 ^ 32) :
    readArchive (writeArchive createdAt label m) = modelOfPayload (encodeModel m) := by
  change readArchive (archiveOf (describeArchive createdAt label) (encodeModel m)) = _
  generalize describeArchive createdAt label = description at hlabel ⊢
  generalize encodeModel m = payload
  have hnoted : payload.length % 2 ^ 32 ≤ payload.length := Nat.mod_le _ _
  have hlarge : ¬ 32 + description.length + payload.length + 4 < 36 := by omega
  -- What is noted is never more than there is, so nothing is missing at the end.
  have hfault := fault?_archiveHeader description.length (payload.length % 2 ^ 32)
    (32 + description.length + payload.length) (by omega)
  unfold readArchive modelOfPayload
  simp only [archiveOf_length, Nat.add_sub_cancel, hlarge, if_false, checksum_archiveOf, ne_eq,
    not_true_eq_false, ofBytes_archiveOf, Nat.mod_eq_of_lt hlabel, hfault,
    payload_archiveOf description payload _ hnoted]
  by_cases h : 2 ^ 30 < payload.length % 2 ^ 32
  · rw [if_pos h, if_pos h]
  · rewrite [if_neg h, if_neg h]
    rfl

/-- A payload up to the limit is noted with its size and holds the model. -/
theorem modelOfPayload_encodeModel (m : PortableModel) (hfits : m.fits = true)
    (hsize : (encodeModel m).length ≤ 2 ^ 30) :
    modelOfPayload (encodeModel m)
      = if m.forest.isFitted then .ok m else .error .notFitted := by
  have hread := takeModel_restores m hfits (by omega) []
  rw [List.append_nil] at hread
  -- The size fits its field, so all of the payload is read.
  have hnoted : (encodeModel m).length % 2 ^ 32 = (encodeModel m).length :=
    Nat.mod_eq_of_lt (by omega)
  unfold modelOfPayload
  simp only [hnoted, List.take_length, hread]
  rw [if_neg (by omega)]

end CommitRisk
