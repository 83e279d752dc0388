import CommitRisk.Pipeline
import CommitRisk.Proofs.Archives
import CommitRisk.Proofs.FileTrees

/-!
# The Time in a Model

A stored model notes when it was trained, and its archive notes when it was
written. Two models that differ in nothing else are stored and loaded alike:
either both can be used, and then again they differ in nothing else, or both
fail for the same reason.

This is not for free. A reader refuses archives above a limit and says how large
they are, so the two archives have to stay within the limit, or the two times have
to be equally long. And a model that is larger than its size can be noted is read
up to somewhere in the middle. What is read then must not reach the time, and it
does not: only a few bytes stand behind the forest, so a payload that is read
beyond it is read to its end.

## Main definitions

* `PortableModel.stamped`, `PortableModel.unstamped`: A model with another time,
  and without any.
* `SameUnstamped`, `SameExport`: Two answers that agree up to the time.
* `ReadAlike`: Two times leave archives that are read alike.

## Theorems

* `modelOfPayload_stamped`: Two payloads that differ in the time.
* `describeArchive_length`: A description is short.
* `loadModel_put`: Loading what was stored.
* `exportModel_stamped`: Storing and loading two models that differ in the time.
-/

namespace CommitRisk

namespace PortableModel

/-- The model as if it had been trained at another time. -/
def stamped (m : PortableModel) (now : String) : PortableModel :=
  { m with note := { m.note with trainedAt := now } }

/-- The model without the time it was trained at. -/
def unstamped (m : PortableModel) : PortableModel :=
  m.stamped ""

/-- The layout of a model before the time. -/
def front (m : PortableModel) : List UInt8 :=
  encodeList encodeText m.names ++ encodeForest m.forest ++ encodeText m.note.version

/-- The layout of a model behind the time. -/
def back (m : PortableModel) : List UInt8 :=
  encodeCount m.note.samples ++ encodeOption encodeText m.note.description

theorem encode_stamped (m : PortableModel) (now : String) :
    encodeModel (m.stamped now) = m.front ++ (encodeText now ++ m.back) := by
  simp only [encodeModel, encodeNote, stamped, front, back, List.append_assoc]

theorem encode_stamped_length (m : PortableModel) (now : String) :
    (encodeModel (m.stamped now)).length
      = m.front.length + (8 + now.utf8ByteSize + m.back.length) := by
  rw [m.encode_stamped, List.length_append, List.length_append, encodeText_length]

theorem fits_stamped (m : PortableModel) (now : String) : (m.stamped now).fits = m.fits := rfl

end PortableModel

/-- Two answers agree up to the time in the model: both fail in the same way, or
    their models are the same without it. -/
def SameUnstamped {ε : Type} (a b : Except ε PortableModel) : Prop :=
  a.map PortableModel.unstamped = b.map PortableModel.unstamped

/-- Two payloads that differ in the time and are within the limit of a reader. -/
theorem modelOfPayload_within (m : PortableModel) (now now' : String) (hfits : m.fits = true)
    (hsize : (encodeModel (m.stamped now)).length ≤ 2 ^ 30)
    (hsize' : (encodeModel (m.stamped now')).length ≤ 2 ^ 30) :
    SameUnstamped (modelOfPayload (encodeModel (m.stamped now)))
      (modelOfPayload (encodeModel (m.stamped now'))) := by
  rw [modelOfPayload_encodeModel (m.stamped now) hfits hsize,
    modelOfPayload_encodeModel (m.stamped now') hfits hsize']
  change (if m.forest.isFitted then _ else _ : Except _ _).map _
    = (if m.forest.isFitted then _ else _ : Except _ _).map _
  split <;> rfl

/-- Two payloads that differ in a time of equal length, with little behind it. -/
theorem modelOfPayload_stamped (m : PortableModel) (now now' : String) (hfits : m.fits = true)
    (hclock : now.utf8ByteSize = now'.utf8ByteSize)
    (hshort : now.utf8ByteSize + m.back.length ≤ 2 ^ 31) :
    SameUnstamped (modelOfPayload (encodeModel (m.stamped now)))
      (modelOfPayload (encodeModel (m.stamped now'))) := by
  have hlength := m.encode_stamped_length now
  -- Both payloads are noted with the same size.
  have hequal : (encodeModel (m.stamped now')).length = (encodeModel (m.stamped now)).length := by
    rw [m.encode_stamped_length, m.encode_stamped_length, hclock]
  by_cases hwhole : (encodeModel (m.stamped now)).length ≤ 2 ^ 30
  · exact modelOfPayload_within m now now' hfits hwhole (by rw [hequal]; exact hwhole)
  · unfold SameUnstamped modelOfPayload
    simp only [hequal]
    by_cases hlarge : 2 ^ 30 < (encodeModel (m.stamped now)).length % 2 ^ 32
    · rw [if_pos hlarge, if_pos hlarge]
    · -- What is noted is less than what there is, and ends before the time.
      have hnoted : (encodeModel (m.stamped now)).length % 2 ^ 32 ≤ m.front.length := by
        have hmod := Nat.mod_add_div (encodeModel (m.stamped now)).length (2 ^ 32)
        omega
      rw [if_neg hlarge, if_neg hlarge, m.encode_stamped, m.encode_stamped,
        List.take_append_of_le_length (by rw [← m.encode_stamped]; exact hnoted),
        List.take_append_of_le_length (by rw [← m.encode_stamped]; exact hnoted)]

theorem packText_length (s : String) : (packText s).length ≤ 5 + s.utf8ByteSize := by
  have hbytes := textBytes_length s
  unfold packText
  simp only []
  split
  · rw [List.length_append, List.length_singleton]
    omega
  · split
    · rw [List.length_append, List.length_cons, highFirst, List.length_reverse, lowFirst_length]
      omega
    · split <;>
      · rw [List.length_append, List.length_cons, highFirst, List.length_reverse, lowFirst_length]
        omega

theorem utf8ByteSize_ofList_le (cs : List Char) :
    (String.ofList cs).utf8ByteSize ≤ 4 * cs.length := by
  induction cs with
  | nil => exact Nat.le_refl 0
  | cons c rest ih =>
      have hc := c.utf8Size_le_four
      rw [String.ofList_cons, String.utf8ByteSize_append, String.utf8ByteSize_singleton,
        List.length_cons]
      omega

theorem utf8ByteSize_toString_le (n : Nat) (h : n < 2 ^ 64) : (toString n).utf8ByteSize ≤ 80 := by
  -- Twenty digits at most, and no character takes more than four bytes.
  have hdigits : (Nat.toDigits 10 n).length ≤ 20 :=
    (Nat.length_toDigits_le_iff (by decide) (by decide)).mpr (by omega)
  have hsize := utf8ByteSize_ofList_le (Nat.toDigits 10 n)
  rw [Nat.toString_eq_ofList_toDigits]
  omega

/-- A description is not much longer than the texts in it. -/
theorem describeArchive_length (createdAt name remark : String) :
    (describeArchive createdAt ⟨some name, some remark⟩).length
      ≤ 150 + createdAt.utf8ByteSize + name.utf8ByteSize + remark.utf8ByteSize := by
  have h₁ := packText_length "created_at"
  have h₂ := packText_length createdAt
  have h₃ := packText_length "aprender_version"
  have h₄ := packText_length "0.13.0"
  have h₅ := packText_length "model_name"
  have h₆ := packText_length name
  have h₇ := packText_length "description"
  have h₈ := packText_length remark
  have hfixed : "created_at".utf8ByteSize + "aprender_version".utf8ByteSize
      + "0.13.0".utf8ByteSize + "model_name".utf8ByteSize + "description".utf8ByteSize ≤ 100 := by
    decide
  simp only [describeArchive, packMap, Option.map_some, Option.toList_some, List.cons_append,
    List.nil_append, List.flatMap_cons, List.flatMap_nil, List.length_cons, List.length_append,
    List.length_nil]
  omega

/-- A pipeline whose width fits eight bytes describes what it stores in a few words. -/
theorem Pipeline.archiveLabel_length (p : Pipeline) (now : String)
    (hshort : now.utf8ByteSize ≤ 2 ^ 30) (hwidth : p.schema.width < 2 ^ 64) :
    (describeArchive now p.archiveLabel).length < 2 ^ 32 := by
  have hdigits := utf8ByteSize_toString_le p.schema.width hwidth
  have hwords : "Random forest over ".utf8ByteSize + " commit metrics".utf8ByteSize
      + "faultline".utf8ByteSize ≤ 100 := by decide
  have hlength := describeArchive_length now "faultline"
    ("Random forest over " ++ toString p.schema.width ++ " commit metrics")
  rw [String.utf8ByteSize_append, String.utf8ByteSize_append] at hlength
  change (describeArchive now ⟨some "faultline",
    some ("Random forest over " ++ toString p.schema.width ++ " commit metrics")⟩).length < 2 ^ 32
  omega

/-- Loading a file that was stored reads the archive in it. -/
theorem loadModel_put (f : Files) (path : String) (place : Place) (bytes : List UInt8)
    (h : f.target path = .ok place) :
    loadModel (f.put place (.file bytes)) path = (readArchive bytes).mapError .load := by
  unfold loadModel
  rw [f.contains_put path place bytes h, if_pos rfl, f.read_put path place bytes h]
  cases hread : readArchive bytes with
  | error e => simp only [hread, Except.mapError]
  | ok m => simp only [hread, Except.mapError]

/-- Two models were stored and loaded alike, and what is loaded later is alike too. -/
def SameExport (path : String) (a b : Except StoreError PortableModel × Files) : Prop :=
  SameUnstamped a.1 b.1 ∧ SameUnstamped (loadModel a.2 path) (loadModel b.2 path)

/-- A file is not larger than a reader of archives accepts. -/
def WithinLimit (path : String) (files : Files) : Prop :=
  ∀ bytes, files.read path = .ok bytes → bytes.length ≤ 2 ^ 30

/-- Two times leave archives that are read alike: they have equal lengths, or both
    archives are within the limit of a reader. -/
def ReadAlike (now now' path : String) (files files' : Files) : Prop :=
  now.utf8ByteSize = now'.utf8ByteSize ∨ (WithinLimit path files ∧ WithinLimit path files')

theorem writeArchive_length (createdAt : String) (label : ArchiveLabel) (m : PortableModel) :
    (encodeModel m).length ≤ (writeArchive createdAt label m).length := by
  change _ ≤ (archiveOf (describeArchive createdAt label) (encodeModel m)).length
  rw [archiveOf_length]
  omega

namespace SameUnstamped

variable {ε : Type} {a b : Except ε PortableModel}

theorem mapError {ε' : Type} (h : SameUnstamped a b) (f : ε → ε') :
    SameUnstamped (a.mapError f) (b.mapError f) := by
  cases a with
  | error e =>
      cases b with
      | error e' =>
          cases h
          rfl
      | ok m' => cases h
  | ok m =>
      cases b with
      | error e' => cases h
      | ok m' => exact congrArg Except.ok (Except.ok.inj h)

/-- Two answers that agree up to the time are two failures for the same reason or two
    models that are the same without it. -/
theorem fails_or_gives (h : SameUnstamped a b) :
    (∃ e, a = .error e ∧ b = .error e) ∨
      ∃ m m', a = .ok m ∧ b = .ok m' ∧ m.unstamped = m'.unstamped := by
  cases a with
  | error e =>
      cases b with
      | error e' =>
          cases h
          exact .inl ⟨e, rfl, rfl⟩
      | ok m' => cases h
  | ok m =>
      cases b with
      | error e' => cases h
      | ok m' => exact .inr ⟨m, m', rfl, rfl, Except.ok.inj h⟩

end SameUnstamped

theorem names_of_unstamped {m m' : PortableModel} (h : m.unstamped = m'.unstamped) :
    m.names = m'.names := by
  have hnames : m.unstamped.names = m'.unstamped.names := by rw [h]
  exact hnames

namespace Pipeline

/-- What becomes of a model in a file tree that has the directory for it. -/
def exportInto (p : Pipeline) (now path : String) (m : PortableModel) (files : Files) :
    Except StoreError PortableModel × Files :=
  if m.fits then
    match files.target path with
    | .error e => (.error (.save (.file e)), files)
    | .ok place =>
        let after := files.put place (.file (writeArchive now p.archiveLabel m))
        match loadModel after path with
        | .error e => (.error e, after)
        | .ok loaded => match loaded.ensureFeatures p.schema.features with
          | .error e => (.error e, after)
          | .ok () => (.ok loaded, after)
  else (.error (.save .countTooLarge), files)

theorem exportModel_eq (p : Pipeline) (now path : String) (m : PortableModel) (files : Files) :
    p.exportModel now path m files = match makeParent files path with
      | (.error e, left) => (.error (.directory e), left)
      | (.ok (), left) => p.exportInto now path m left := by
  unfold exportModel saveModel exportInto
  cases makeParent files path with
  | mk answer left =>
      cases answer with
      | error e => rfl
      | ok _ =>
          by_cases hfits : m.fits = true
          · simp only [hfits, if_true, Files.write_eq]
            cases left.target path with
            | error e => rfl
            | ok place => rfl
          · simp only [hfits, Bool.false_eq_true, if_false]

/-- A model that fits leaves its archive at the target, whether it can be loaded or
    not. -/
theorem exportInto_files (p : Pipeline) (now path : String) (m : PortableModel) (files : Files)
    (place : Place) (hfits : m.fits = true) (htarget : files.target path = .ok place) :
    (p.exportInto now path m files).2
      = files.put place (.file (writeArchive now p.archiveLabel m)) := by
  unfold exportInto
  simp only [hfits, if_true, htarget]
  split
  · rfl
  · split <;> rfl

/-- Loading two models that differ in the time, from the archives that were stored. -/
theorem loadModel_stamped (p : Pipeline) (now now' path : String) (m : PortableModel)
    (files : Files) (place : Place) (hfits : m.fits = true)
    (htarget : files.target path = .ok place)
    (halike : ReadAlike now now' path (p.exportInto now path (m.stamped now) files).2
      (p.exportInto now' path (m.stamped now') files).2)
    (hshort : now.utf8ByteSize + m.back.length ≤ 2 ^ 30) (hshort' : now'.utf8ByteSize ≤ 2 ^ 30)
    (hwidth : m.forest.width = p.schema.width) :
    SameUnstamped
      (loadModel (files.put place (.file (writeArchive now p.archiveLabel (m.stamped now)))) path)
      (loadModel (files.put place (.file (writeArchive now' p.archiveLabel (m.stamped now'))))
        path) := by
  rcases m.fits_iff.mp hfits with ⟨_, hwide, _⟩
  -- Reading an archive that was written comes down to its payload.
  rw [loadModel_put files path place _ htarget, loadModel_put files path place _ htarget,
    readArchive_writeArchive now p.archiveLabel _ (p.archiveLabel_length now (by omega) (by omega)),
    readArchive_writeArchive now' p.archiveLabel _ (p.archiveLabel_length now' hshort' (by omega))]
  refine SameUnstamped.mapError ?_ StoreError.load
  rcases halike with hclock | ⟨hlimit, hlimit'⟩
  · exact modelOfPayload_stamped m now now' hfits hclock (by omega)
  · rw [p.exportInto_files now path (m.stamped now) files place hfits htarget] at hlimit
    rw [p.exportInto_files now' path (m.stamped now') files place hfits htarget] at hlimit'
    -- The archive that is read back is the one that was written.
    have hsize := hlimit _ (files.read_put path place _ htarget)
    have hsize' := hlimit' _ (files.read_put path place _ htarget)
    exact modelOfPayload_within m now now' hfits
      (Nat.le_trans (writeArchive_length now p.archiveLabel (m.stamped now)) hsize)
      (Nat.le_trans (writeArchive_length now' p.archiveLabel (m.stamped now')) hsize')

/-- Storing and loading two models that differ in the time, in a tree that has the
    directory for them. -/
theorem exportInto_stamped (p : Pipeline) (now now' path : String) (m : PortableModel)
    (files : Files)
    (halike : ReadAlike now now' path (p.exportInto now path (m.stamped now) files).2
      (p.exportInto now' path (m.stamped now') files).2)
    (hshort : now.utf8ByteSize + m.back.length ≤ 2 ^ 30) (hshort' : now'.utf8ByteSize ≤ 2 ^ 30)
    (hwidth : m.forest.width = p.schema.width) :
    SameExport path (p.exportInto now path (m.stamped now) files)
      (p.exportInto now' path (m.stamped now') files) := by
  by_cases hfits : m.fits = true
  · cases htarget : files.target path with
    | error e =>
        simp only [exportInto, m.fits_stamped, hfits, if_true, htarget]
        exact ⟨rfl, rfl⟩
    | ok place =>
        have hload := p.loadModel_stamped now now' path m files place hfits htarget halike hshort
          hshort' hwidth
        simp only [exportInto, m.fits_stamped, hfits, if_true, htarget]
        -- Whether the model suits the schema is a matter of its names.
        rcases hload.fails_or_gives with ⟨e, ha, hb⟩ | ⟨s, s', ha, hb, hsame⟩
        · simp only [ha, hb]
          exact ⟨rfl, hload⟩
        · have hnames := names_of_unstamped hsame
          simp only [ha, hb, PortableModel.ensureFeatures, hnames]
          by_cases hsuits : s'.names = p.schema.features
          · simp only [if_pos hsuits]
            exact ⟨congrArg Except.ok hsame, hload⟩
          · simp only [if_neg hsuits]
            exact ⟨rfl, hload⟩
  · simp only [exportInto, m.fits_stamped, hfits, Bool.false_eq_true, if_false]
    exact ⟨rfl, rfl⟩

/-- Storing and loading two models that differ in the time. -/
theorem exportModel_stamped (p : Pipeline) (now now' path : String) (m : PortableModel)
    (files : Files)
    (halike : ReadAlike now now' path (p.exportModel now path (m.stamped now) files).2
      (p.exportModel now' path (m.stamped now') files).2)
    (hshort : now.utf8ByteSize + m.back.length ≤ 2 ^ 30) (hshort' : now'.utf8ByteSize ≤ 2 ^ 30)
    (hwidth : m.forest.width = p.schema.width) :
    SameExport path (p.exportModel now path (m.stamped now) files)
      (p.exportModel now' path (m.stamped now') files) := by
  rw [exportModel_eq, exportModel_eq] at halike ⊢
  -- Making the directory does not depend on the model.
  generalize makeParent files path = made at halike ⊢
  rcases made with ⟨answer, left⟩
  cases answer with
  | error e => exact ⟨rfl, rfl⟩
  | ok _ => exact p.exportInto_stamped now now' path m left halike hshort hshort' hwidth

end Pipeline

end CommitRisk
