import CommitRisk.Archive.Bytes
import Mathlib

/-!
# Layouts Are Read Back

What was laid out as bytes is read back, whatever stands behind it. Numbers are
read back if they fit their width, and texts and lists if their layout is not
longer than a length can say, which is the one thing every reader here relies
on; so it is a part of what reading back means.

## Main definitions

* `Restores`: A decoder reads a value back from its layout.

## Theorems

* `lowFirst_length`, `encodeText_length`: How long layouts are.
* `natOfBytes_lowFirst`: A number is read back up to what its width cannot hold.
* `Restores.bind`, `Restores.last`: Layouts that stand behind one another.
* `takeCount_restores`, `takeWord_restores`, `takeFloat_restores`: Numbers.
* `takeText_restores`, `takeOption_restores`, `takeList_restores`: What is put
  together from them.
-/

namespace CommitRisk

variable {α β : Type}

/-- A decoder reads a value from a layout and leaves what stands behind it. A
    layout of 2 ^ 64 bytes and more cannot say how long it is. -/
def Restores (item : Decoder α) (x : α) (layout : List UInt8) : Prop :=
  layout.length < 2 ^ 64 → ∀ rest, item (layout ++ rest) = some (x, rest)

theorem Restores.bind {item : Decoder α} {next : α → Decoder β} {x : α} {y : β}
    {first second : List UInt8} (hitem : Restores item x first)
    (hnext : Restores (next x) y second) : Restores (item >>= next) y (first ++ second) := by
  intro hsize rest
  rw [List.length_append] at hsize
  have hfirst := hitem (by omega) (second ++ rest)
  have hsecond := hnext (by omega) rest
  rw [List.append_assoc]
  -- The first reader stops where the second layout begins.
  change (item (first ++ (second ++ rest))).bind (fun read => next read.1 read.2) = _
  rw [hfirst]
  exact hsecond

theorem Restores.pure (x : α) : Restores (Pure.pure x : Decoder α) x [] :=
  fun _ _ => rfl

/-- The last of several layouts, behind which nothing more is read. -/
theorem Restores.last {item : Decoder α} {next : α → Decoder β} {x : α} {y : β}
    {layout : List UInt8} (hitem : Restores item x layout) (hnext : Restores (next x) y []) :
    Restores (item >>= next) y layout := by
  have h := hitem.bind hnext
  rw [List.append_nil] at h
  exact h

/-- The last of several layouts, behind which the value is put together. -/
theorem Restores.result {item : Decoder α} {x : α} {layout : List UInt8}
    (hitem : Restores item x layout) (f : α → β) :
    Restores (item >>= fun read => Pure.pure (f read)) (f x) layout :=
  hitem.last (.pure (f x))

theorem lowFirst_length (width n : Nat) : (lowFirst width n).length = width := by
  induction width generalizing n with
  | zero => rfl
  | succ width ih => rw [lowFirst, List.length_cons, ih]

theorem encodeCount_length (n : Nat) : (encodeCount n).length = 8 :=
  lowFirst_length 8 n

theorem textBytes_length (s : String) : (textBytes s).length = s.utf8ByteSize := by
  rw [textBytes, Array.length_toList, String.toUTF8_eq_toByteArray]
  exact s.size_toByteArray

theorem encodeText_length (s : String) : (encodeText s).length = 8 + s.utf8ByteSize := by
  rw [encodeText, List.length_append, encodeCount_length, textBytes_length]

theorem encodeOption_length_pos (encode : α → List UInt8) (x : Option α) :
    0 < (encodeOption encode x).length := by
  cases x with
  | none => exact Nat.one_pos
  | some y => exact Nat.succ_pos _

/-- A number is read back up to what its width cannot hold. -/
theorem natOfBytes_lowFirst (width n : Nat) :
    natOfBytes (lowFirst width n) = n % 256 ^ width := by
  induction width generalizing n with
  | zero => rw [lowFirst, natOfBytes, Nat.pow_zero, Nat.mod_one]
  | succ width ih =>
      have hlow : (UInt8.ofNat (n % 256)).toNat = n % 256 := by
        rw [UInt8.toNat_ofNat']
        omega
      rw [lowFirst, natOfBytes, ih (n / 256), hlow, Nat.pow_succ, Nat.mul_comm (256 ^ width),
        Nat.mod_mul]

theorem takeBytes_restores (bytes : List UInt8) :
    Restores (takeBytes bytes.length) bytes bytes := by
  intro _ rest
  unfold takeBytes
  simp only [List.take_left, List.drop_left, if_true]

theorem takeNat_restores (width n : Nat) (h : n < 256 ^ width) :
    Restores (takeNat width) n (lowFirst width n) := by
  have hread := (takeBytes_restores (lowFirst width n)).result natOfBytes
  rw [lowFirst_length, natOfBytes_lowFirst, Nat.mod_eq_of_lt h] at hread
  exact hread

theorem takeCount_restores (n : Nat) (h : n < 2 ^ 64) :
    Restores takeCount n (encodeCount n) :=
  takeNat_restores 8 n h

theorem takeWord_restores (n : UInt64) : Restores takeWord n (encodeWord n) := by
  have hread := (takeNat_restores 8 n.toNat n.toNat_lt).result UInt64.ofNat
  rw [UInt64.ofNat_toNat] at hread
  exact hread

theorem takeFloat32_restores (x : Float32) : Restores takeFloat32 x (encodeFloat32 x) := by
  have hread := (takeNat_restores 4 x.toBits.toNat x.toBits.toNat_lt).result
    fun n => Float32.ofBits (UInt32.ofNat n)
  rw [UInt32.ofNat_toNat, Float32.ofBits_toBits] at hread
  exact hread

theorem takeFloat_restores (x : Float) : Restores takeFloat x (encodeFloat x) := by
  have hread := (takeNat_restores 8 x.toBits.toNat x.toBits.toNat_lt).result
    fun n => Float.ofBits (UInt64.ofNat n)
  rw [UInt64.ofNat_toNat, Float.ofBits_toBits] at hread
  exact hread

theorem fromUTF8?_textBytes (s : String) :
    String.fromUTF8? ⟨(textBytes s).toArray⟩ = some s := by
  -- The bytes of a text are valid, because a text carries the proof that they are.
  have hbytes : (⟨(textBytes s).toArray⟩ : ByteArray) = s.toByteArray := by
    rw [textBytes, Array.toArray_toList]
    rfl
  rw [hbytes, String.fromUTF8?, dif_pos s.isValidUTF8]
  rfl

theorem takeText_restores (s : String) : Restores takeText s (encodeText s) := by
  intro hsize
  have hcount : (textBytes s).length < 2 ^ 64 := by
    rw [encodeText, List.length_append] at hsize
    omega
  refine (takeCount_restores _ hcount).bind ((takeBytes_restores (textBytes s)).last ?_) hsize
  rw [fromUTF8?_textBytes]
  exact .pure s

theorem takeOption_restores (item : Decoder α) (encode : α → List UInt8) (x : Option α)
    (hitem : ∀ y ∈ x, Restores item y (encode y)) :
    Restores (takeOption item) x (encodeOption encode x) := by
  -- The tag says which of the two it is.
  cases x with
  | none => exact (takeNat_restores 1 0 (by decide)).bind (.pure none)
  | some y =>
      exact (takeNat_restores 1 1 (by decide)).bind ((hitem y rfl).result some)

theorem takeMany_restores (item : Decoder α) (encode : α → List UInt8) (xs : List α)
    (hitem : ∀ x ∈ xs, Restores item x (encode x)) :
    Restores (takeMany item xs.length) xs (xs.flatMap encode) := by
  induction xs with
  | nil => exact .pure []
  | cons x rest ih =>
      have hrest := ih fun y hy => hitem y (List.mem_cons_of_mem x hy)
      rw [List.flatMap_cons]
      exact (hitem x List.mem_cons_self).bind (hrest.result (x :: ·))

theorem length_le_flatMap (encode : α → List UInt8) (xs : List α)
    (hfilled : ∀ x ∈ xs, 0 < (encode x).length) : xs.length ≤ (xs.flatMap encode).length := by
  induction xs with
  | nil => exact Nat.zero_le _
  | cons x rest ih =>
      have hx := hfilled x List.mem_cons_self
      have hrest := ih fun y hy => hfilled y (List.mem_cons_of_mem x hy)
      rw [List.flatMap_cons, List.length_append, List.length_cons]
      omega

/-- A list whose layout is not too long has a length that is not too large, because
    no entry has an empty layout. -/
theorem takeList_restores (item : Decoder α) (encode : α → List UInt8) (xs : List α)
    (hitem : ∀ x ∈ xs, Restores item x (encode x))
    (hfilled : ∀ x ∈ xs, 0 < (encode x).length) :
    Restores (takeList item) xs (encodeList encode xs) := by
  intro hsize
  have hcount : xs.length < 2 ^ 64 := by
    have hle := length_le_flatMap encode xs hfilled
    rw [encodeList, List.length_append] at hsize
    omega
  exact (takeCount_restores _ hcount).bind (takeMany_restores item encode xs hitem) hsize

end CommitRisk
