/-!
# Selection

The value at a rank of a sample: the one that comes to stand there when the
sample is brought into order. Only as much order is made as the rank needs. A
sample is parted by one of its values, the part in which the rank lies is parted
again, and so on until few values are left, which are sorted.

Values may differ although neither is below the other, as the two zeros do. Then
the order in which the sample is given decides which of them is at a rank: the
last rank has the first of the greatest values, the first rank the first of the
least, and few values keep the order they are given in.

## Main definitions

* `Wheel`: The values of a part, which are turned while they are collected.
* `parted`: A sample parted by a property.
* `pivotPosition`: Where the value stands that a sample is parted by.
* `atRank?`: The value at a rank.

## Theorems

* `Wheel.toList_push`, `Wheel.toList_turn`: What becomes of the values of a wheel.
-/

namespace CommitRisk

/-! ## Parting -/

/-- Values that are read from the front and, after those, from the end of the
    back to its beginning. -/
structure Wheel (α : Type) where
  front : List α
  back : List α

namespace Wheel

variable {α : Type}

/-- The values in their order. -/
def toList (r : Wheel α) : List α :=
  r.front ++ r.back.reverse

/-- A value put in front of all others. -/
def push (r : Wheel α) (x : α) : Wheel α :=
  ⟨x :: r.front, r.back⟩

/-- The first value moved behind all others. -/
def turn : Wheel α → Wheel α
  | ⟨x :: front, back⟩ => ⟨front, x :: back⟩
  | ⟨[], back⟩ => match back.reverse with
      | [] => ⟨[], []⟩
      | x :: front => ⟨front, [x]⟩

@[simp]
theorem toList_push (r : Wheel α) (x : α) : (r.push x).toList = x :: r.toList :=
  rfl

@[simp]
theorem toList_turn (r : Wheel α) :
    r.turn.toList = r.toList.tail ++ r.toList.head?.toList := by
  obtain ⟨front, back⟩ := r
  cases front with
  | cons x front => simp [turn, toList]
  | nil =>
      cases h : back.reverse with
      | nil => simp [turn, toList, h]
      | cons x front => simp [turn, toList, h]

end Wheel

variable {α : Type}

/-- The values with a property, from the last one read to the first, and the wheel
    of those without it. With every value that is read the wheel turns. -/
def collect (isLow : α → Bool) : List α × Wheel α → α → List α × Wheel α
  | (low, high), x => if isLow x then (x :: low, high.turn) else (low, high.turn.push x)

/-- The values with a property and those without it. The first value is read
    last, and the last value with the property comes to stand before the others
    with it. -/
def parted (isLow : α → Bool) : List α → List α × List α
  | [] => ([], [])
  | first :: rest =>
      match (rest ++ [first]).foldl (collect isLow) ([], ⟨[], []⟩) with
      | ([], high) => ([], high.toList)
      | (last :: low, high) => (last :: low.reverse, high.toList)

/-! ## The value to part by -/

section Order

variable (below : α → α → Bool)

/-- Of three positions the one with the middle value. -/
def middlePosition (value : Nat → Option α) (a b c : Nat) : Nat :=
  let isBelow (i j : Nat) : Bool :=
    ((value i).bind fun x => (value j).map fun y => below x y).getD false
  if isBelow a b == isBelow a c then
    if isBelow b c == isBelow a b then b else c
  else a

/-- The middle of three positions, each of which is, if the given number of values
    follows it, itself the middle of three positions among those values. -/
def middleOfMiddles (value : Nat → Option α) (n a b c : Nat) : Nat :=
  if 8 ≤ n then
    let m := n / 8
    let among (start : Nat) : Nat :=
      middleOfMiddles value m start (start + 4 * m) (start + 7 * m)
    middlePosition below value (among a) (among b) (among c)
  else middlePosition below value a b c
termination_by n

/-- The position of the value that a sample is parted by: it is near the middle of
    the sample if the values at some positions apart from each other are. -/
def pivotPosition (values : List α) : Nat :=
  let array := values.toArray
  let n := values.length / 8
  middleOfMiddles below (fun i => array[i]?) n 0 (4 * n) (7 * n)

/-! ## The value at a rank -/

/-- A sample in rising order. Values neither of which is below the other stay in
    the order they are given in. -/
def rising (values : List α) : List α :=
  values.mergeSort fun a b => !below b a

/-- The most values that are sorted and not parted. -/
def fewValues : Nat := 16

/-- The most times that a sample is parted. -/
def maxPartings : Nat := 16

/-- The value at a rank of a sample, found with no more than the given number of
    partings. If the value to part by is not above a value that no value of the
    sample is below, the sample is parted into the values equal to both and those
    above. -/
def partToRank : Nat → Option α → List α → Nat → Option α
  | 0, _, values, rank => (rising below values)[rank]?
  | _ + 1, _, [], _ => none
  | partings + 1, least, first :: rest, rank =>
      let values := first :: rest
      if values.length ≤ fewValues then (rising below values)[rank]?
      else
        let position := pivotPosition below values
        let pivot := values.getD position first
        let others := (values.set position first).tail
        if least.any fun x => !below x pivot then
          let (equal, above) := parted (fun x => !below pivot x) others
          if rank ≤ equal.length then (equal ++ [pivot])[rank]?
          else partToRank partings none above (rank - equal.length - 1)
        else
          let (low, high) := parted (fun x => below x pivot) others
          if low.length < rank then
            partToRank partings (some pivot) high (rank - low.length - 1)
          else if rank < low.length then partToRank partings least low rank
          else some pivot

/-- The first of the values that no value is above. -/
def firstGreatest? : List α → Option α
  | [] => none
  | x :: rest => some (rest.foldl (fun best y => if below best y then y else best) x)

/-- The value at a rank of a sample, if it has so many values. -/
def atRank? (values : List α) (rank : Nat) : Option α :=
  if rank + 1 == values.length then firstGreatest? below values
  else if rank == 0 then firstGreatest? (fun a b => below b a) values
  else partToRank below maxPartings none values rank

end Order

end CommitRisk
