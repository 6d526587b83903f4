import XBlast.Foundation.CString

/-!
# The current directory of the FTP server

`VirtualRoot.c` keeps the current directory as a text. The partitions are the directories of a
virtual root, and everything below it is reached through `FatFSAccess`. Going forward appends a
part to the text. Going back cuts the text at its last separator and then behind the separator that
is the last one now, so that two parts are gone; it answers that as a failure. Only when there is no
second separator it answers success, and that leads to the virtual root.

The search for a separator is meant to start behind the first letter. It starts behind the fourth:
`cPathSep` is a macro for a character, and `sizeof(cPathSep)` is the size of an `int`. A path of one
part has no separator there and cannot be left. If the path is shorter than that, the search runs
over its end into what the stack held before, `stack`, and its answer depends on these bytes.

`vrootCd_returns_iff` says when `..` leads back to where a step forward came from: the step was made
in the virtual root, the name has at most two letters, and the bytes of the stack happen to hold
exactly one separator.
-/

set_option autoImplicit false
set_option relaxedAutoImplicit false

namespace XBlast.Files

open Foundation List Option

/-! ### The code -/

def cPathSep : UInt8 := 0x2F

def maxPathLength : ℕ := 255

/-- The file system behind a directory, `NULL` in the virtual root. -/
inductive ChildFs where
  | fatFSAccess
  deriving DecidableEq, Repr

structure VirtualRoot where
  cwd : List UInt8
  currentAccessor : Option ChildFs
  deriving DecidableEq, Repr

/-- The state that `VirtualRootInit` leaves. -/
def virtualRoot : VirtualRoot := ⟨[cPathSep], none⟩

/-- A text is copied to an array of bytes if there is room for it and its closing NUL. What a
longer text overwrites is not modelled. -/
def copied (size : ℕ) (text : List UInt8) : Option (List UInt8) :=
  if text.length < size then some text else none

/-- `combinePath` into an array of 300 bytes. -/
def combinePath (cwd add : List UInt8) : Option (List UInt8) :=
  copied 300 (if cwd.getLast? = some cPathSep then cwd ++ add else cwd ++ cPathSep :: add)

/-- The last separator from the fifth letter of a buffer on. A buffer without a NUL is read behind
its end, which is not modelled. -/
def lastSeparator (workPath : List UInt8) : Option (Option ℕ) :=
  if 0 ∈ workPath.drop 4 then
    some ((strrchr cPathSep (cString (workPath.drop 4))).map (4 + ·))
  else none

section

variable (existing : List UInt8 → Bool) (stack path : List UInt8) (state : VirtualRoot)

def pathProcessAbsolute : Int × VirtualRoot :=
  if path = [cPathSep] then (0, virtualRoot)
  else if existing path then (0, ⟨path, some .fatFSAccess⟩)
  else (-1, state)

def pathProcessGoingForward : Option (Int × VirtualRoot) :=
  if path.head? = some cPathSep then some (-1, state)
  else do
    let workPath ← combinePath state.cwd path
    if existing workPath then do
      let cwd ← copied 259 workPath
      some (0, ⟨cwd, some .fatFSAccess⟩)
    else some (-1, state)

/-- The array that the path is copied to holds what was on the stack, `stack`, behind it. -/
def pathProcessGoingBack : Option (Int × VirtualRoot) := do
  let text ← copied 300 state.cwd
  let workPath := text ++ 0 :: stack.drop (text.length + 1)
  match ← lastSeparator workPath with
  | none => some (-1, state)
  | some sepPos =>
    let workPath := workPath.set sepPos 0
    match ← lastSeparator workPath with
    | none => some (0, virtualRoot)
    | some sepPos =>
      let newPath := cString (workPath.set (sepPos + 1) 0)
      if state.currentAccessor = none then some (-1, state)
      else if existing newPath then some (-1, { state with cwd := newPath })
      else some (-1, virtualRoot)

/-- Changes the directory. `existing` are the directories that `FatFSAccess.chdir` accepts. -/
def vrootCd : Option (Int × VirtualRoot) :=
  if maxPathLength < path.length then some (-1, state)
  else if path.head? = some cPathSep then some (pathProcessAbsolute existing path state)
  else if path = ascii ".." then pathProcessGoingBack existing stack state
  else pathProcessGoingForward existing path state

end

/-- The states that calls of `vroot_cd` lead to. -/
inductive Reachable (existing : List UInt8 → Bool) : VirtualRoot → Prop
  | init : Reachable existing virtualRoot
  | step {state after : VirtualRoot} {stack path : List UInt8} {result : Int}
      (hstate : Reachable existing state) (hpath : 0 ∉ path)
      (hcd : vrootCd existing stack path state = some (result, after)) : Reachable existing after

/-! ### What a call leaves -/

variable (existing : List UInt8 → Bool)

section

variable {existing : List UInt8 → Bool} {stack path : List UInt8} {state after : VirtualRoot}
  {result : Int}

theorem copied_eq_some_iff {size : ℕ} {text copy : List UInt8} :
    copied size text = some copy ↔ text.length < size ∧ text = copy := by
  rw [copied]
  split_ifs with hroom <;> simp [hroom]

theorem pathProcessAbsolute_after (existing : List UInt8 → Bool) (path : List UInt8)
    (state : VirtualRoot) :
    (pathProcessAbsolute existing path state).2 = state ∨
      (pathProcessAbsolute existing path state).2 = virtualRoot ∨
      (pathProcessAbsolute existing path state).2.currentAccessor ≠ none := by
  rw [pathProcessAbsolute]
  split_ifs
  · exact .inr (.inl rfl)
  · exact .inr (.inr (some_ne_none _))
  · exact .inl rfl

/-- A step forward either fails and changes nothing, or it enters a directory that exists. -/
theorem pathProcessGoingForward_cases
    (hforward : pathProcessGoingForward existing path state = some (result, after)) :
    (result = -1 ∧ after = state) ∨
      ∃ cwd, combinePath state.cwd path = some cwd ∧ cwd.length < 259 ∧ result = 0 ∧
        after = ⟨cwd, some .fatFSAccess⟩ := by
  rw [pathProcessGoingForward] at hforward
  split_ifs at hforward with hsep
  · exact .inl (by simpa [eq_comm] using hforward)
  · obtain ⟨workPath, hcombined, hforward⟩ := bind_eq_some_iff.mp hforward
    split_ifs at hforward with hexisting
    · obtain ⟨cwd, hcopied, hafter⟩ := bind_eq_some_iff.mp hforward
      obtain ⟨hroom, rfl⟩ := copied_eq_some_iff.mp hcopied
      obtain ⟨rfl, rfl⟩ : 0 = result ∧ ⟨workPath, some .fatFSAccess⟩ = after := by
        simpa using hafter
      exact .inr ⟨workPath, hcombined, hroom, rfl, rfl⟩
    · exact .inl (by simpa [eq_comm] using hforward)

/-- The bytes that are searched for a separator: the path from its fifth letter on, and what the
stack held behind it. -/
def searched (stack cwd : List UInt8) : List UInt8 :=
  (cwd ++ 0 :: stack.drop (cwd.length + 1)).drop 4

theorem lastSeparator_eq_some_iff {workPath : List UInt8} {found : Option ℕ} :
    lastSeparator workPath = some found ↔
      0 ∈ workPath.drop 4 ∧
        (strrchr cPathSep (cString (workPath.drop 4))).map (4 + ·) = found := by
  rw [lastSeparator]
  split_ifs with hnul <;> simp [hnul]

/-- The search in the text that was cut at its last separator finds nothing if that separator was
the only one. -/
theorem lastSeparator_set {workPath : List UInt8} {sepPos : ℕ}
    (hfound : lastSeparator workPath = some (some sepPos)) :
    ∃ found, lastSeparator (workPath.set sepPos 0) = some found ∧
      (found = none ↔ (cString (workPath.drop 4)).count cPathSep = 1) := by
  obtain ⟨hnul, hfound⟩ := lastSeparator_eq_some_iff.mp hfound
  obtain ⟨place, hplace, rfl⟩ := map_eq_some_iff.mp hfound
  have hdrop : (workPath.set (4 + place) 0).drop 4 = (workPath.drop 4).set place 0 := by
    rw [drop_set, if_neg (by omega), Nat.add_sub_cancel_left]
  have hinside : place < (workPath.drop 4).length := by
    obtain ⟨before, behind, htext, rfl, -⟩ := exists_of_strrchr_eq_some hplace
    have hlength := (takeWhile_sublist (l := workPath.drop 4) (· ≠ (0 : UInt8))).length_le
    rw [← cString, htext, length_append, length_cons] at hlength
    omega
  have hcut : 0 ∈ (workPath.set (4 + place) 0).drop 4 := by
    rw [hdrop]
    exact mem_set hinside 0
  refine ⟨_, lastSeparator_eq_some_iff.mpr ⟨hcut, rfl⟩, ?_⟩
  rw [map_eq_none_iff, strrchr_eq_none_iff, hdrop, cString_set, not_mem_take_strrchr_iff hplace]

/-- A step back that fails leaves the directory as it is, enters the virtual root or stays with
`FatFSAccess`. It succeeds with exactly one separator in the bytes that are searched. -/
theorem pathProcessGoingBack_cases
    (hback : pathProcessGoingBack existing stack state = some (result, after)) :
    (result = -1 ∧ (after = state ∨ after = virtualRoot ∨ after.currentAccessor ≠ none)) ∨
      (result = 0 ∧ after = virtualRoot ∧ 0 ∈ searched stack state.cwd ∧
        (cString (searched stack state.cwd)).count cPathSep = 1) := by
  obtain ⟨text, hcopied, hback⟩ := bind_eq_some_iff.mp hback
  obtain ⟨-, rfl⟩ := copied_eq_some_iff.mp hcopied
  obtain ⟨found, hfound, hback⟩ := bind_eq_some_iff.mp hback
  cases found with
  | none =>
    obtain ⟨rfl, rfl⟩ : -1 = result ∧ state = after := by simpa using hback
    exact .inl ⟨rfl, .inl rfl⟩
  | some sepPos =>
    obtain ⟨second, hsecond, hback⟩ := bind_eq_some_iff.mp hback
    obtain ⟨found, hcut, hcount⟩ := lastSeparator_set hfound
    obtain rfl : found = second := some.inj (hcut.symm.trans hsecond)
    cases found with
    | none =>
      obtain ⟨rfl, rfl⟩ : 0 = result ∧ virtualRoot = after := by simpa using hback
      exact .inr ⟨rfl, rfl, (lastSeparator_eq_some_iff.mp hfound).1, hcount.mp rfl⟩
    | some place =>
      refine .inl ?_
      dsimp only at hback
      split_ifs at hback with haccessor hexisting
      · obtain ⟨rfl, rfl⟩ : -1 = result ∧ state = after := by simpa using hback
        exact ⟨rfl, .inl rfl⟩
      · obtain ⟨rfl, rfl⟩ := Prod.mk.inj (some.inj hback)
        exact ⟨rfl, .inr (.inr haccessor)⟩
      · obtain ⟨rfl, rfl⟩ : -1 = result ∧ virtualRoot = after := by simpa using hback
        exact ⟨rfl, .inr (.inl rfl)⟩

/-- With exactly one separator in the bytes that are searched, a step back leads to the virtual
root. -/
theorem pathProcessGoingBack_of_count (hroom : state.cwd.length < 300)
    (hnul : 0 ∈ searched stack state.cwd)
    (hcount : (cString (searched stack state.cwd)).count cPathSep = 1) :
    pathProcessGoingBack existing stack state = some (0, virtualRoot) := by
  have hmem : cPathSep ∈ cString (searched stack state.cwd) :=
    count_pos_iff.mp (by omega)
  obtain ⟨place, hplace⟩ := ne_none_iff_exists'.mp
    (mt strrchr_eq_none_iff.mp (not_not_intro hmem))
  have hfound : lastSeparator (state.cwd ++ 0 :: stack.drop (state.cwd.length + 1)) =
      some (some (4 + place)) :=
    lastSeparator_eq_some_iff.mpr ⟨hnul, congrArg (Option.map (4 + ·)) hplace⟩
  obtain ⟨found, hcut, hnone⟩ := lastSeparator_set hfound
  rw [hnone.mpr hcount] at hcut
  rw [pathProcessGoingBack, copied_eq_some_iff.mpr ⟨hroom, rfl⟩]
  simp only [bind_eq_bind, bind_some, hfound, hcut]

/-! ### Reachable directories -/

theorem vrootCd_after (hcd : vrootCd existing stack path state = some (result, after)) :
    after = state ∨ after = virtualRoot ∨ after.currentAccessor ≠ none := by
  rw [vrootCd] at hcd
  split_ifs at hcd with hlong habsolute hback
  · exact .inl (Prod.mk.inj (some.inj hcd)).2.symm
  · have hafter := pathProcessAbsolute_after existing path state
    rwa [some.inj hcd] at hafter
  · obtain ⟨-, hafter⟩ | ⟨-, hafter, -⟩ := pathProcessGoingBack_cases hcd
    · exact hafter
    · exact .inr (.inl hafter)
  · obtain ⟨-, rfl⟩ | ⟨cwd, -, -, -, rfl⟩ := pathProcessGoingForward_cases hcd
    · exact .inl rfl
    · exact .inr (.inr (some_ne_none _))

/-- A directory with no file system behind it is the virtual root. -/
theorem Reachable.eq_virtualRoot (hstate : Reachable existing state)
    (hroot : state.currentAccessor = none) : state = virtualRoot := by
  induction hstate with
  | init => rfl
  | step _ _ hcd ih =>
    obtain rfl | rfl | hinside := vrootCd_after hcd
    · exact ih hroot
    · rfl
    · exact absurd hroot hinside

/-- A step forward that succeeds in the virtual root leads to the name behind the separator. -/
theorem vrootCd_virtualRoot {name : List UInt8} (hname : name ≠ ascii "..")
    (hsegment : cPathSep ∉ name)
    (hcd : vrootCd existing stack name virtualRoot = some (0, after)) :
    after = ⟨cPathSep :: name, some .fatFSAccess⟩ ∧ name.length < 258 := by
  have hhead : name.head? ≠ some cPathSep := fun hhead ↦ hsegment (mem_of_head? hhead)
  rw [vrootCd, if_neg hhead, if_neg hname] at hcd
  split_ifs at hcd with hlong
  · exact absurd (Prod.mk.inj (some.inj hcd)).1 (by decide)
  · obtain ⟨hresult, -⟩ | ⟨cwd, hcombined, hroom, -, rfl⟩ := pathProcessGoingForward_cases hcd
    · exact absurd hresult (by decide)
    · obtain ⟨-, rfl⟩ := copied_eq_some_iff.mp hcombined
      exact ⟨rfl, Nat.lt_of_succ_lt_succ hroom⟩

/-! ### The way back -/

/-- A path from its fifth letter on, when it has that many. -/
theorem cString_searched {cwd : List UInt8} (hcwd : ∀ letter ∈ cwd, letter ≠ 0)
    (hlong : 4 ≤ cwd.length) : cString (searched stack cwd) = cwd.drop 4 := by
  rw [searched, drop_append_of_le_length hlong]
  exact cString_append (fun letter hletter ↦ hcwd letter (mem_of_mem_drop hletter)) _

/-- The search in a shorter path starts in what the stack held. -/
theorem searched_of_length_lt {cwd : List UInt8} (hshort : cwd.length < 4) :
    searched stack cwd = stack.drop 4 := by
  obtain ⟨behind, hbehind⟩ := Nat.exists_eq_add_of_lt hshort
  rw [searched, drop_append, drop_eq_nil_of_le hshort.le, nil_append, hbehind,
    show cwd.length + behind + 1 - cwd.length = behind + 1 by omega, drop_succ_cons, drop_drop]
  congr 1
  omega

end

/-- The same directory, up to a separator at the end. -/
def SameDirectory (cwd other : List UInt8) : Prop :=
  cwd = other ∨ cwd = other ++ [cPathSep] ∨ cwd ++ [cPathSep] = other

/-- Going back succeeds and leads to the directory `state`. -/
def ReturnsTo (stack : List UInt8) (after state : VirtualRoot) : Prop :=
  ∃ final, vrootCd existing stack (ascii "..") after = some (0, final) ∧
    SameDirectory final.cwd state.cwd ∧ final.currentAccessor = state.currentAccessor

theorem vrootCd_back (stack : List UInt8) (state : VirtualRoot) :
    vrootCd existing stack (ascii "..") state = pathProcessGoingBack existing stack state := by
  rw [vrootCd, if_neg (by decide), if_neg (by decide), if_pos rfl]

/-- A step forward is undone by `..` exactly if it was made in the virtual root, its name has at
most two letters, and the stack holds exactly one separator from its fifth byte to the next NUL. -/
theorem vrootCd_returns_iff (stack stack' : List UInt8) {state after : VirtualRoot}
    (hstate : Reachable existing state) {name : List UInt8} (hnul : 0 ∉ name)
    (hsegment : cPathSep ∉ name) (hname : name ≠ ascii "..")
    (hcd : vrootCd existing stack name state = some (0, after)) :
    ReturnsTo existing stack' after state ↔
      state.currentAccessor = none ∧ name.length ≤ 2 ∧ 0 ∈ stack'.drop 4 ∧
        (cString (stack'.drop 4)).count cPathSep = 1 := by
  constructor
  · rintro ⟨final, hback, -, haccessor⟩
    rw [vrootCd_back] at hback
    obtain ⟨hresult, -⟩ | ⟨-, rfl, hend, hcount⟩ := pathProcessGoingBack_cases hback
    · exact absurd hresult (by decide)
    obtain rfl := hstate.eq_virtualRoot haccessor.symm
    obtain ⟨rfl, -⟩ := vrootCd_virtualRoot hname hsegment hcd
    have hletters : ∀ letter ∈ cPathSep :: name, letter ≠ 0 := by
      rintro letter hletter rfl
      exact (mem_cons.mp hletter).elim (by decide) hnul
    -- a longer name is searched itself, and it has no separator
    have hshort : name.length ≤ 2 := by
      by_contra hlong
      rw [cString_searched hletters (by simp only [length_cons]; omega)] at hcount
      have hmem : cPathSep ∈ name.drop 3 := count_pos_iff.mp (by
        simpa only [drop_succ_cons] using hcount.symm ▸ Nat.one_pos)
      exact hsegment (mem_of_mem_drop hmem)
    rw [searched_of_length_lt (by simp only [length_cons]; omega)] at hend hcount
    exact ⟨rfl, hshort, hend, hcount⟩
  · rintro ⟨haccessor, hshort, hend, hcount⟩
    obtain rfl := hstate.eq_virtualRoot haccessor
    obtain ⟨rfl, hroom⟩ := vrootCd_virtualRoot hname hsegment hcd
    have hsearched : searched stack' (cPathSep :: name) = stack'.drop 4 :=
      searched_of_length_lt (by simp only [length_cons]; omega)
    refine ⟨virtualRoot, ?_, .inl rfl, rfl⟩
    rw [vrootCd_back]
    refine pathProcessGoingBack_of_count ?_ ?_ ?_
    · simp only [length_cons]
      omega
    · rwa [hsearched]
    · rwa [hsearched]

/-- A name of one letter, and a separator on the stack. -/
theorem vrootCd_returns_short :
    ReturnsTo (fun _ ↦ true) [0, 0, 0, 0, 0x2F, 0] ⟨ascii "/e", some .fatFSAccess⟩ virtualRoot :=
  (vrootCd_returns_iff (fun _ ↦ true) [] [0, 0, 0, 0, 0x2F, 0] Reachable.init
    (show 0 ∉ ascii "e" by decide) (by decide) (by decide) (by decide)).mpr
    ⟨rfl, by decide, by decide, by decide⟩

/-- A partition that is entered from the virtual root is not left again: the answer is a failure,
and the directory stays. -/
theorem vrootCd_partition_stays :
    vrootCd (· = ascii "/MASTER_C") [] (ascii "MASTER_C") virtualRoot =
        some (0, ⟨ascii "/MASTER_C", some .fatFSAccess⟩) ∧
      vrootCd (· = ascii "/MASTER_C") [] (ascii "..") ⟨ascii "/MASTER_C", some .fatFSAccess⟩ =
        some (-1, ⟨ascii "/MASTER_C", some .fatFSAccess⟩) := by
  decide

end XBlast.Files
