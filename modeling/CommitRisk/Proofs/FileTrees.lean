import CommitRisk.Files
import CommitRisk.Proofs.Checked

/-!
# Files That Were Written

Where a file is written to depends on the tree and on the path, and not on what
is written. What was written is read back under the same path: the names of the
path lead through directories only, and none of these is the place of the file,
so the names lead there as before.

## Main definitions

* `Files.target`: The place that a file is written to.
* `WritesTo`: What is known about this place.

## Theorems

* `pathNames_eq`: The names of a path that does not end in a slash.
* `write_eq`: Writing puts a file at the target.
* `target_writesTo`: What is known about the target of a path.
* `follow_put`: Names lead past a file that was put where no directory was.
* `read_put`, `contains_put`: A file is read back under the path it was written to.
-/

namespace CommitRisk

/-- Text that does not end in a separator has something behind the last one. -/
theorem splitOn_slash (text : List Char) (hne : text ≠ []) (hend : ¬ ['/'] <:+ text) :
    ∃ before last, text.splitOn '/' = before ++ [last] ∧ last ≠ [] := by
  induction text with
  | nil => exact absurd rfl hne
  | cons c rest ih =>
      -- A separator begins a new name, and any other character is put to the first one.
      rw [List.splitOn_cons_eq_if_modifyHead]
      cases rest with
      | nil =>
          have hc : (c == '/') = false := by
            rw [beq_eq_false_iff_ne]
            rintro rfl
            exact hend List.suffix_rfl
          rw [hc, if_neg Bool.false_ne_true]
          exact ⟨[], [c], rfl, List.cons_ne_nil c []⟩
      | cons d rest =>
          have hshorter : ¬ ['/'] <:+ d :: rest := fun h => hend (h.trans (List.suffix_cons c _))
          rcases ih (List.cons_ne_nil d rest) hshorter with ⟨before, last, hsplit, hlast⟩
          rw [hsplit]
          by_cases hc : (c == '/') = true
          · rw [if_pos hc]
            exact ⟨[] :: before, last, rfl, hlast⟩
          · rw [if_neg hc]
            cases before with
            | nil => exact ⟨[], c :: last, rfl, List.cons_ne_nil c last⟩
            | cons first before => exact ⟨(c :: first) :: before, last, rfl, hlast⟩

theorem pathNames_eq (path : String) (hfault : pathFault? path = none)
    (hend : path.endsWith "/" = false) :
    pathNames path = (splitLast path).1 ++ [(splitLast path).2] := by
  have hne : path.toList ≠ [] := by
    intro h
    have hempty : path.isEmpty = true := by
      rw [String.toList_eq_nil_iff.mp h]
      rfl
    unfold pathFault? at hfault
    rw [hempty] at hfault
    split at hfault <;> simp only [if_true, reduceCtorEq] at hfault
  have hslash : ¬ ['/'] <:+ path.toList := by
    intro h
    have hslice : path.toSlice.endsWith "/" = true := by
      rw [String.Slice.endsWith_string_iff, String.copy_toSlice]
      exact h
    exact absurd (hend.symm.trans hslice) Bool.false_ne_true
  rcases splitOn_slash path.toList hne hslash with ⟨before, last, hsplit, hlast⟩
  -- So no name is dropped at the end.
  have hname : (String.ofList last == "") = false := by
    rw [beq_eq_false_iff_ne]
    intro h
    have hchars := congrArg String.toList h
    rw [String.toList_ofList] at hchars
    exact hlast hchars
  have hnames : pathNames path = before.map String.ofList ++ [String.ofList last] := by
    rw [pathNames, hsplit, List.map_append, List.map_singleton]
  have hlastname : splitLast path = (before.map String.ofList, String.ofList last) := by
    rw [splitLast, hnames, List.reverse_append, List.reverse_singleton, List.singleton_append,
      List.dropWhile_cons, hname, if_neg Bool.false_ne_true]
    simp only [List.reverse_reverse]
  rw [hnames, hlastname]

namespace Files

/-- The place that a file is written to. -/
def target (f : Files) (path : String) : Except FileError Place := do
  let (place, name) ← f.enterToLast path
  if path.endsWith "/" || isDots name then .error .isADirectory
  else if maxNameBytes < name.utf8ByteSize then .error .nameTooLong
  else if f.entry? (place ++ [name]) == some .directory then .error .isADirectory
  else .ok (place ++ [name])

/-- What is known about the place that a file is written to: the path names it in a
    directory, and it is not a directory itself. -/
structure WritesTo (f : Files) (path : String) (place : Place) (before : List String)
    (name : String) (directory : Place) : Prop where
  sound : pathFault? path = none
  names : pathNames path = before ++ [name]
  reached : f.follow (startOf path) before = .ok directory
  entered : f.entry? directory = some .directory
  notDots : isDots name = false
  short : ¬ maxNameBytes < name.utf8ByteSize
  isPlace : place = directory ++ [name]
  noDirectory : f.entry? place ≠ some .directory

theorem write_eq (f : Files) (path : String) (bytes : List UInt8) :
    f.write path bytes = (f.target path).map fun place => f.put place (.file bytes) := by
  unfold write target
  cases f.enterToLast path with
  | error e => rfl
  | ok found =>
      rcases found with ⟨place, name⟩
      simp only [bind, Except.bind]
      split
      · rfl
      · split
        · rfl
        · split <;> rfl

theorem enterToLast_eq_ok (f : Files) (path : String) (directory : Place) (name : String)
    (h : f.enterToLast path = .ok (directory, name)) :
    pathFault? path = none ∧ (splitLast path).2 = name ∧
      f.follow (startOf path) (splitLast path).1 = .ok directory ∧
      f.entry? directory = some .directory := by
  unfold enterToLast at h
  cases hfault : pathFault? path with
  | some fault => simp only [hfault, reduceCtorEq] at h
  | none =>
      simp only [hfault] at h
      rcases (bind_eq_ok _ _ _).mp h with ⟨place, henter, hpair⟩
      cases hpair
      unfold enter at henter
      rcases (bind_eq_ok _ _ _).mp henter with ⟨reached, hfollow, hentry⟩
      cases hdir : f.entry? reached with
      | none => simp only [hdir, reduceCtorEq] at hentry
      | some entry =>
          cases entry with
          | file bytes => simp only [hdir, reduceCtorEq] at hentry
          | directory =>
              simp only [hdir, Except.ok.injEq] at hentry
              rw [hentry] at hfollow hdir
              exact ⟨rfl, rfl, hfollow, hdir⟩

theorem target_writesTo (f : Files) (path : String) (place : Place)
    (h : f.target path = .ok place) :
    ∃ before name directory, f.WritesTo path place before name directory := by
  unfold target at h
  rcases (bind_eq_ok _ _ _).mp h with ⟨⟨directory, name⟩, henter, hplace⟩
  rcases f.enterToLast_eq_ok path directory name henter with ⟨hfault, hname, hreached, hentered⟩
  simp only [] at hplace
  split at hplace
  · cases hplace
  · rename_i hform
    split at hplace
    · cases hplace
    · rename_i hshort
      split at hplace
      · cases hplace
      · rename_i hdirectory
        rw [Bool.or_eq_true, not_or, Bool.not_eq_true, Bool.not_eq_true] at hform
        rw [beq_iff_eq] at hdirectory
        cases hplace
        have hnames := pathNames_eq path hfault hform.1
        rw [hname] at hnames
        exact ⟨(splitLast path).1, name, directory, hfault, hnames, hreached, hentered, hform.2,
          hshort, rfl, hdirectory⟩

theorem entry?_put_self (f : Files) (place : Place) (entry : Entry)
    (hgiven : isGiven place = false) : Files.entry? (f.put place entry) place = some entry := by
  unfold entry?
  rw [hgiven, if_neg Bool.false_ne_true, put, List.lookup_cons, beq_self_eq_true]

theorem lookup_filter_ne (entries : List (Place × Entry)) (place other : Place)
    (h : other ≠ place) :
    (entries.filter fun (p, _) => p != place).lookup other = entries.lookup other := by
  induction entries with
  | nil => rfl
  | cons entry rest ih =>
      rcases entry with ⟨p, e⟩
      rw [List.filter_cons, List.lookup_cons]
      -- An entry that is left out was at the place, and so not at the other one.
      by_cases hp : p = place
      · have hother : (other == p) = false := by
          rw [beq_eq_false_iff_ne, hp]
          exact h
        have hdropped : (p != place) = false := by
          rw [hp, bne_self_eq_false]
        simp only [hdropped, Bool.false_eq_true, if_false, ih, hother]
      · have hkept : (p != place) = true := by
          rw [bne_iff_ne]
          exact hp
        simp only [hkept, if_true, List.lookup_cons, ih]

theorem entry?_put_ne (f : Files) (place other : Place) (entry : Entry) (h : other ≠ place) :
    Files.entry? (f.put place entry) other = f.entry? other := by
  have hother : (other == place) = false := by
    rw [beq_eq_false_iff_ne]
    exact h
  unfold entry?
  rw [put, List.lookup_cons, hother, lookup_filter_ne f.entries place other h]

/-- Names that lead through directories do not come across a place where there is
    none, whatever is put there. -/
theorem follow_put (f : Files) (place start stop : Place) (entry : Entry) (names : List String)
    (hplace : f.entry? place ≠ some .directory) (h : f.follow start names = .ok stop) :
    (f.put place entry).follow start names = .ok stop := by
  induction names generalizing start with
  | nil => exact h
  | cons name rest ih =>
      rw [follow] at h ⊢
      cases hentry : f.entry? start with
      | none => simp only [hentry, reduceCtorEq] at h
      | some found =>
          cases found with
          | file bytes => simp only [hentry, reduceCtorEq] at h
          | directory =>
              -- The place is no directory, and names lead on from directories only.
              have hne : start ≠ place := by
                rintro rfl
                exact hplace hentry
              rw [entry?_put_ne f place start entry hne, hentry]
              simp only [hentry] at h
              by_cases hlong : maxNameBytes < name.utf8ByteSize
              · rw [if_pos hlong] at h
                cases h
              · simp only [if_neg hlong] at h ⊢
                exact ih _ h

theorem follow_append (f : Files) (start stop : Place) (before rest : List String)
    (h : f.follow start before = .ok stop) :
    f.follow start (before ++ rest) = f.follow stop rest := by
  induction before generalizing start with
  | nil =>
      rw [follow, Except.ok.injEq] at h
      rw [List.nil_append, h]
  | cons name before ih =>
      rw [List.cons_append, follow]
      rw [follow] at h
      cases hentry : f.entry? start with
      | none => simp only [hentry, reduceCtorEq] at h
      | some found =>
          cases found with
          | file bytes => simp only [hentry, reduceCtorEq] at h
          | directory =>
              simp only [hentry] at h
              by_cases hlong : maxNameBytes < name.utf8ByteSize
              · rw [if_pos hlong] at h
                cases h
              · simp only [if_neg hlong] at h ⊢
                exact ih _ h

/-- The path of a file that was put at its target leads there. -/
theorem resolve_put (f : Files) (path : String) (place : Place) (bytes : List UInt8)
    (h : f.target path = .ok place) :
    (f.put place (.file bytes)).resolve path = .ok place ∧
      Files.entry? (f.put place (.file bytes)) place = some (.file bytes) := by
  rcases f.target_writesTo path place h with ⟨before, name, directory, ht⟩
  -- A place that is given is a directory, and the target is none.
  have hgiven : isGiven place = false := by
    rw [Bool.eq_false_iff]
    intro h
    refine ht.noDirectory ?_
    unfold entry?
    rw [h, if_pos rfl]
  -- The names before the last lead to the directory as they did before.
  have hreached := follow_put f place _ _ (.file bytes) before ht.noDirectory ht.reached
  have hne : directory ≠ place := by
    rintro rfl
    exact ht.noDirectory ht.entered
  have hentered := entry?_put_ne f place directory (.file bytes) hne
  -- The last name is neither empty nor dots, so it is put behind the directory.
  have hstep : Place.step directory name = place := by
    have hdots := ht.notDots
    rw [isDots, Bool.or_eq_false_iff] at hdots
    rw [Place.step, hdots.1, if_neg Bool.false_ne_true, hdots.2, if_neg Bool.false_ne_true,
      ht.isPlace]
  refine ⟨?_, entry?_put_self f place _ hgiven⟩
  simp only [resolve, ht.sound]
  rw [ht.names, follow_append _ _ directory before [name] hreached, follow, hentered, ht.entered]
  simp only [if_neg ht.short, follow, hstep]

theorem read_put (f : Files) (path : String) (place : Place) (bytes : List UInt8)
    (h : f.target path = .ok place) : (f.put place (.file bytes)).read path = .ok bytes := by
  rcases f.resolve_put path place bytes h with ⟨hresolve, hentry⟩
  unfold read
  rw [hresolve]
  simp only [bind, Except.bind, hentry]

theorem contains_put (f : Files) (path : String) (place : Place) (bytes : List UInt8)
    (h : f.target path = .ok place) : (f.put place (.file bytes)).contains path = true := by
  rcases f.resolve_put path place bytes h with ⟨hresolve, hentry⟩
  simp only [contains, hresolve, hentry, Option.isSome_some]

end Files

end CommitRisk
