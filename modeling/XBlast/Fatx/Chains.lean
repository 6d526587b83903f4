import XBlast.Fatx.FatEntries

/-!
# Growing a chain of clusters

`create_chain` looks for a free cluster, once around the FAT from a hint, and links it behind the
last cluster of a chain. The search visits every cluster from 2 on. Linking fails for the first
cluster of a FATX volume, which holds the root directory: `get_fat` accepts it and `put_fat` does
not, so the new cluster is marked as used and then belongs to no chain.
-/

set_option autoImplicit false
set_option relaxedAutoImplicit false

namespace XBlast.Fatx

open Foundation Disk Program

variable {δ : Type}

/-! ### The code -/

variable (io : DiskIo δ) (pdrv : Drive)

/-- The cluster at which the search starts, or the answer: the hint for a new chain, and otherwise
the cluster to stretch, if it is the last one. -/
def startCluster (clst : UInt32) : VolumeM δ (Except UInt32 UInt32) := do
  let fs ← Program.gets fun state ↦ state.fs
  if clst = 0 then
    pure (.ok (if fs.lastClst = 0 ∨ fs.nFatent ≤ fs.lastClst then 1 else fs.lastClst))
  else do
    let cs ← getFat io pdrv clst
    if cs < 2 then pure (.error 1)
    else if cs = 0xFFFFFFFF ∨ cs < fs.nFatent then pure (.error cs)
    else pure (.ok clst)

/-- The next cluster, around the end of the FAT. -/
def nextCluster (nFatent ncl : UInt32) : UInt32 := if nFatent ≤ ncl + 1 then 2 else ncl + 1

/-- The loop that looks for a free cluster behind `ncl` and up to `scl`, once around the FAT. The
first number bounds the turns of the loop. -/
def findFreeCluster (io : DiskIo δ) (pdrv : Drive) (scl : UInt32) :
    ℕ → UInt32 → VolumeM δ (Except UInt32 UInt32)
  | 0, _ => Program.stop .intErr
  | turns + 1, ncl => do
      let nFatent ← Program.gets fun state ↦ state.fs.nFatent
      if nFatent ≤ ncl + 1 ∧ scl < 2 then pure (.error 0)
      else do
        let ncl := nextCluster nFatent ncl
        let cs ← getFat io pdrv ncl
        if cs = 0 then pure (.ok ncl)
        else if cs = 1 ∨ cs = 0xFFFFFFFF then pure (.error cs)
        else if ncl = scl then pure (.error 0)
        else findFreeCluster io pdrv scl turns ncl

/-- A stretched chain takes the cluster behind its last one if that is free. -/
def chooseCluster (clst scl : UInt32) : VolumeM δ (Except UInt32 UInt32) := do
  let fs ← Program.gets fun state ↦ state.fs
  if scl = clst then do
    let ncl := nextCluster fs.nFatent scl
    let cs ← getFat io pdrv ncl
    if cs = 1 ∨ cs = 0xFFFFFFFF then pure (.error cs)
    else if cs = 0 then pure (.ok ncl)
    else
      let scl := if 2 ≤ fs.lastClst ∧ fs.lastClst < fs.nFatent then fs.lastClst else scl
      findFreeCluster io pdrv scl fs.nFatent.toNat scl
  else findFreeCluster io pdrv scl fs.nFatent.toNat scl

/-- Notes that a cluster was given to a chain. -/
def FatFs.takeCluster (ncl : UInt32) (fs : FatFs) : FatFs :=
  { fs with
    lastClst := ncl
    freeClst := if fs.freeClst ≤ fs.nFatent - 2 then fs.freeClst - 1 else fs.freeClst
    fsiFlag := fs.fsiFlag ||| 1 }

/-- Writes the number of a cluster to the entry of the previous one, if there is one. -/
def linkBehind (clst ncl : UInt32) : VolumeM δ Unit :=
  if clst = 0 then pure () else putFat io pdrv clst ncl

/-- Marks a cluster as the last one of its chain and links it behind the previous one. -/
def linkCluster (clst ncl : UInt32) : VolumeM δ UInt32 :=
  Program.recover (fun code ↦ if code = .diskErr then 0xFFFFFFFF else 1) do
    putFat io pdrv ncl 0xFFFFFFFF
    linkBehind io pdrv clst ncl
    modifyFs (FatFs.takeCluster ncl)
    pure ncl

/-- Stretches a chain behind its last cluster, or creates a chain when the number is zero. The
answer is the new cluster, 0 if there is none, 1 after an internal error and 0xFFFFFFFF after an
error of the disk. -/
def createChain (clst : UInt32) : VolumeM δ UInt32 :=
  (startCluster io pdrv clst).unlessReturned fun scl ↦ do
    let freeClst ← Program.gets fun state ↦ state.fs.freeClst
    if freeClst = 0 then pure 0
    else (chooseCluster io pdrv clst scl).unlessReturned fun ncl ↦ linkCluster io pdrv clst ncl

/-! ### The search -/

/-- A cluster that can be given to a chain. -/
structure FreeCluster (fs : FatFs) (content : Bytes) (clst : UInt32) : Prop where
  two_le : 2 ≤ clst.toNat
  lt : clst.toNat < fs.nFatent.toNat
  free : fatValue fs content clst = 0

/-- What a search through some of the clusters finds. -/
inductive Searched (fs : FatFs) (content : Bytes) (searched : ℕ → Prop) :
    Except UInt32 UInt32 → Prop
  | found (ncl : UInt32) (hfree : FreeCluster fs content ncl) :
      Searched fs content searched (.ok ncl)
  | full (hused : ∀ clst : UInt32, searched clst.toNat → ¬ FreeCluster fs content clst) :
      Searched fs content searched (.error 0)
  | broken (clst : UInt32) (hlow : 2 ≤ clst.toNat) (hhigh : clst.toNat < fs.nFatent.toNat)
      (hone : fatValue fs content clst = 1) : Searched fs content searched (.error 1)

variable {fs : FatFs}

theorem Searched.mono {content : Bytes} {searched searched' : ℕ → Prop}
    {result : Except UInt32 UInt32} (hsearched : Searched fs content searched' result)
    (hmore : ∀ clst : UInt32, searched clst.toNat → FreeCluster fs content clst →
      searched' clst.toNat) : Searched fs content searched result := by
  cases hsearched with
  | found ncl hfree => exact .found ncl hfree
  | full hused => exact .full fun clst hclst hfree ↦ hused clst (hmore clst hclst hfree) hfree
  | broken clst hlow hhigh hone => exact .broken clst hlow hhigh hone

/-- The clusters that the loop has yet to look at: those behind `ncl` up to `scl`, around the end
of the FAT if it has not been passed. -/
def Ahead (scl ncl : UInt32) (clst : ℕ) : Prop :=
  if scl.toNat ≤ ncl.toNat then ncl.toNat < clst ∨ clst ≤ scl.toNat
  else ncl.toNat < clst ∧ clst ≤ scl.toNat

/-- How many clusters that are. -/
def turnsLeft (nFatent scl ncl : ℕ) : ℕ :=
  if scl ≤ ncl then nFatent - 1 - ncl + (scl - 1) else scl - ncl

theorem IsFatxFs.firstCluster_eq (hfatx : IsFatxFs fs) : firstCluster fs = 1 :=
  if_pos hfatx

theorem IsFatxFs.accepted_iff (hfatx : IsFatxFs fs) (clst : UInt32) :
    Accepted fs clst ↔ 1 ≤ clst.toNat ∧ clst.toNat < fs.nFatent.toNat := by
  rw [Accepted, hfatx.firstCluster_eq, not_or, UInt32.not_lt, UInt32.not_le,
    UInt32.le_iff_toNat_le, UInt32.lt_iff_toNat_lt]
  exact Iff.rfl

theorem fatStatus_of_lt (hfatx : IsFatxFs fs) (content : Bytes) {clst : UInt32}
    (hlow : 1 ≤ clst.toNat) (hhigh : clst.toNat < fs.nFatent.toNat) :
    fatStatus fs content clst = fatValue fs content clst :=
  if_neg ((hfatx.accepted_iff clst).mpr ⟨hlow, hhigh⟩)

/-- No entry is read as the mark of a disk that fails. -/
theorem fatValue_ne_diskErr (fs : FatFs) (content : Bytes) (clst : UInt32) :
    fatValue fs content clst ≠ 0xFFFFFFFF := by
  intro hvalue
  have hle := fatValue_le fs content clst
  rw [hvalue, fatMask] at hle
  split_ifs at hle
  · exact absurd hle (by decide)
  · exact absurd hle (by decide)

section

variable {nFatent scl ncl : UInt32}

theorem le_add_one_iff (hlast : ncl.toNat < nFatent.toNat) :
    nFatent ≤ ncl + 1 ↔ nFatent.toNat = ncl.toNat + 1 := by
  have hbound := nFatent.toNat_lt
  rw [UInt32.le_iff_toNat_le, UInt32.toNat_add, show (1 : UInt32).toNat = 1 from rfl]
  omega

theorem nextCluster_toNat (hlast : ncl.toNat < nFatent.toNat) :
    (nextCluster nFatent ncl).toNat =
      if nFatent.toNat = ncl.toNat + 1 then 2 else ncl.toNat + 1 := by
  have hbound := nFatent.toNat_lt
  rw [nextCluster]
  by_cases hend : nFatent ≤ ncl + 1
  · rw [if_pos hend, if_pos ((le_add_one_iff hlast).mp hend)]
    rfl
  · rw [if_neg hend, if_neg fun heq ↦ hend ((le_add_one_iff hlast).mpr heq), UInt32.toNat_add,
      show (1 : UInt32).toNat = 1 from rfl]
    omega

variable (hhigh : scl.toNat < nFatent.toNat) (hlast : ncl.toNat < nFatent.toNat)

include hhigh hlast

theorem nextCluster_bounds (hncl : 1 ≤ ncl.toNat)
    (hgoes : ¬ (nFatent.toNat = ncl.toNat + 1 ∧ scl.toNat < 2)) :
    2 ≤ (nextCluster nFatent ncl).toNat ∧
      (nextCluster nFatent ncl).toNat < nFatent.toNat := by
  rw [nextCluster_toNat hlast]
  split_ifs
  · omega
  · omega

/-- A turn of the loop leaves one cluster behind. -/
theorem Ahead.next {clst : ℕ} (htwo : 2 ≤ clst) (hlt : clst < nFatent.toNat)
    (hahead : Ahead scl ncl clst) (hne : clst ≠ (nextCluster nFatent ncl).toNat) :
    (nextCluster nFatent ncl).toNat ≠ scl.toNat ∧ Ahead scl (nextCluster nFatent ncl) clst := by
  rw [Ahead] at hahead ⊢
  rw [nextCluster_toNat hlast] at hne ⊢
  split_ifs at hahead hne ⊢ <;> omega

theorem turnsLeft_next (hlow : 1 ≤ scl.toNat)
    (hgoes : ¬ (nFatent.toNat = ncl.toNat + 1 ∧ scl.toNat < 2))
    (hmore : (nextCluster nFatent ncl).toNat ≠ scl.toNat) :
    turnsLeft nFatent.toNat scl.toNat (nextCluster nFatent ncl).toNat <
      turnsLeft nFatent.toNat scl.toNat ncl.toNat := by
  rw [turnsLeft, turnsLeft]
  rw [nextCluster_toNat hlast] at hmore ⊢
  split_ifs at hmore ⊢ <;> omega

end

section

variable {io : DiskIo δ} {device : BlockDevice io} {pdrv : Drive} {fs : FatFs}
  {content : Bytes} (hsound : ¬ device.faulty) (hfatx : IsFatxFs fs) (hfats : fs.nFats ≠ 2)

include hsound hfatx hfats

variable {state : VolumeState δ} {scl : UInt32}

/-- The loop looks at all clusters that are ahead and ends. -/
theorem findFreeCluster_spec (hlow : 1 ≤ scl.toNat) (hhigh : scl.toNat < fs.nFatent.toNat)
    (turns : ℕ) {ncl : UInt32} (hncl : 1 ≤ ncl.toNat) (hlast : ncl.toNat < fs.nFatent.toNat)
    (hturns : turnsLeft fs.nFatent.toNat scl.toNat ncl.toNat < turns)
    (hshows : Shows device pdrv fs content state) :
    (findFreeCluster io pdrv scl turns ncl).wp
      (fun result after ↦ Searched fs content (Ahead scl ncl) result ∧
        Shows device pdrv fs content after)
      (fun _ _ ↦ False) state := by
  induction turns generalizing ncl state with
  | zero => omega
  | succ turns ih =>
    rw [findFreeCluster, wp_bind, wp_gets, hshows.nFatent, wp_ite,
      le_add_one_iff hlast, UInt32.lt_iff_toNat_lt]
    refine ⟨fun hend ↦ ⟨.full fun clst hclst hfree ↦ ?_, hshows⟩, fun hgoes ↦ ?_⟩
    · -- The end of the FAT is reached and there is no cluster in front of the start.
      have htwo := hfree.two_le
      have hlt := hfree.lt
      have hscl : scl.toNat < 2 := hend.2
      rw [Ahead] at hclst
      split_ifs at hclst
      · omega
      · omega
    obtain ⟨htwo, hlt⟩ := nextCluster_bounds hhigh hlast hncl hgoes
    rw [wp_bind]
    refine wp_safe (getFat_shows hsound hfatx hfats hshows _) ?_
    rintro cs read ⟨hcs, hread⟩
    rw [fatStatus_of_lt hfatx content (by omega) hlt] at hcs
    rw [wp_ite]
    refine ⟨fun hfree ↦ ⟨.found _ ⟨htwo, hlt, hcs ▸ hfree⟩, hread⟩, fun hused ↦ ?_⟩
    have hahead (clst : UInt32) (hclst : Ahead scl ncl clst.toNat)
        (hfree : FreeCluster fs content clst) :=
      Ahead.next hhigh hlast hfree.two_le hfree.lt hclst fun heq ↦
        hused (hcs.trans ((UInt32.toNat_inj.mp heq) ▸ hfree.free))
    rw [wp_ite]
    refine ⟨fun hstop ↦ ?_, fun _ ↦ ?_⟩
    · have hone : cs = 1 := hstop.resolve_right fun herr ↦
        fatValue_ne_diskErr fs content _ (hcs ▸ herr)
      rw [hone]
      exact ⟨.broken _ htwo hlt (hcs ▸ hone), hread⟩
    rw [wp_ite]
    refine ⟨fun hdone ↦ ⟨.full fun clst hclst hfree ↦ ?_, hread⟩, fun hmore ↦ ?_⟩
    · exact (hahead clst hclst hfree).1 (congrArg UInt32.toNat hdone)
    · have hless := turnsLeft_next hhigh hlast hlow hgoes fun heq ↦
        hmore (UInt32.toNat_inj.mp heq)
      refine wp_safe (ih (by omega) hlt (by omega) hread) ?_
      rintro result after ⟨hsearched, hafter⟩
      exact ⟨hsearched.mono fun clst hclst hfree ↦ (hahead clst hclst hfree).2, hafter⟩

/-- A search from a cluster visits all clusters. -/
theorem findFreeCluster_all (hlow : 1 ≤ scl.toNat) (hhigh : scl.toNat < fs.nFatent.toNat)
    (hshows : Shows device pdrv fs content state) :
    (findFreeCluster io pdrv scl fs.nFatent.toNat scl).wp
      (fun result after ↦ Searched fs content (fun _ ↦ True) result ∧
        Shows device pdrv fs content after)
      (fun _ _ ↦ False) state := by
  have hturns : turnsLeft fs.nFatent.toNat scl.toNat scl.toNat < fs.nFatent.toNat := by
    rw [turnsLeft, if_pos le_rfl]
    omega
  refine wp_safe (findFreeCluster_spec hsound hfatx hfats hlow hhigh _ hlow hhigh hturns
    hshows) ?_
  rintro result after ⟨hsearched, hafter⟩
  refine ⟨hsearched.mono fun clst _ _ ↦ ?_, hafter⟩
  rw [Ahead, if_pos le_rfl]
  omega

/-- On a volume without clusters the search behind a chain fails otherwise: there is no entry for
the next cluster to read. -/
theorem chooseCluster_spec (clst : UInt32) (hlow : 1 ≤ scl.toNat)
    (hhigh : scl.toNat < fs.nFatent.toNat) (hshows : Shows device pdrv fs content state) :
    (chooseCluster io pdrv clst scl).wp
      (fun result after ↦ (fs.nFatent.toNat = 2 ∧ scl = clst → result = .error 1) ∧
        (¬ (fs.nFatent.toNat = 2 ∧ scl = clst) → Searched fs content (fun _ ↦ True) result) ∧
        Shows device pdrv fs content after)
      (fun _ _ ↦ False) state := by
  have hall (result : Except UInt32 UInt32) (after : VolumeState δ)
      (hnot : ¬ (fs.nFatent.toNat = 2 ∧ scl = clst))
      (hsearched : Searched fs content (fun _ ↦ True) result)
      (hafter : Shows device pdrv fs content after) :
      (fs.nFatent.toNat = 2 ∧ scl = clst → result = .error 1) ∧
        (¬ (fs.nFatent.toNat = 2 ∧ scl = clst) → Searched fs content (fun _ ↦ True) result) ∧
        Shows device pdrv fs content after :=
    ⟨fun hboth ↦ absurd hboth hnot, fun _ ↦ hsearched, hafter⟩
  have hsearch (hnot : ¬ (fs.nFatent.toNat = 2 ∧ scl = clst)) {first : UInt32}
      (hfirst : 1 ≤ first.toNat) (hend : first.toNat < fs.nFatent.toNat)
      {before : VolumeState δ} (hbefore : Shows device pdrv fs content before) :=
    wp_mono (findFreeCluster_all hsound hfatx hfats hfirst hend hbefore)
      (fun result after hdone ↦ hall result after hnot hdone.1 hdone.2) fun _ _ hfalse ↦ hfalse
  rw [chooseCluster, wp_bind, wp_gets, hshows.nFatent, hshows.lastClst, wp_ite]
  refine ⟨fun hstretch ↦ ?_, fun hnew ↦ ?_⟩
  · rw [wp_bind]
    refine wp_safe (getFat_shows hsound hfatx hfats hshows _) ?_
    rintro cs read ⟨hcs, hread⟩
    by_cases hempty : fs.nFatent.toNat = 2
    · have hone : cs = 1 := by
        have hend : fs.nFatent.toNat = scl.toNat + 1 := by omega
        rw [hcs, fatStatus, if_pos]
        right
        rw [UInt32.le_iff_toNat_le, nextCluster_toNat hhigh, if_pos hend]
        omega
      rw [hone, if_pos (.inl rfl)]
      exact ⟨fun _ ↦ rfl, fun hnot ↦ absurd ⟨hempty, hstretch⟩ hnot, hread⟩
    · obtain ⟨htwo, hlt⟩ := nextCluster_bounds hhigh hhigh hlow (by omega)
      rw [fatStatus_of_lt hfatx content (by omega) hlt] at hcs
      rw [wp_ite]
      refine ⟨fun hstop ↦ ?_, fun _ ↦ ?_⟩
      · have hone : cs = 1 := hstop.resolve_right fun herr ↦
          fatValue_ne_diskErr fs content _ (hcs ▸ herr)
        rw [hone]
        exact hall (.error 1) read (fun hboth ↦ hempty hboth.1)
          (.broken _ htwo hlt (hcs ▸ hone)) hread
      · rw [wp_ite]
        refine ⟨fun hfree ↦ ?_, fun _ ↦ ?_⟩
        · exact hall (.ok _) read (fun hboth ↦ hempty hboth.1)
            (.found _ ⟨htwo, hlt, hcs ▸ hfree⟩) hread
        · dsimp only
          split_ifs with hhint
          · rw [UInt32.le_iff_toNat_le, UInt32.lt_iff_toNat_lt] at hhint
            exact hsearch (fun hboth ↦ hempty hboth.1) (Nat.le_of_succ_le hhint.1) hhint.2 hread
          · exact hsearch (fun hboth ↦ hempty hboth.1) hlow hhigh hread
  · exact hsearch (fun hboth ↦ hnew hboth.2) hlow hhigh hshows

end

/-! ### Linking the new cluster -/

/-- The content of the volume after a cluster was linked behind a chain. -/
def linkedContent (fs : FatFs) (content : Bytes) (clst ncl : UInt32) : Bytes :=
  if clst = 0 then setFatValue fs content ncl 0xFFFFFFFF
  else setFatValue fs (setFatValue fs content ncl 0xFFFFFFFF) clst ncl

/-- What `create_chain` answers and leaves, for a new chain or behind the last cluster of one. -/
inductive ChainCreated (fs : FatFs) (content : Bytes) (clst : UInt32) :
    UInt32 → FatFs → Bytes → Prop
  | full (hfull : fs.freeClst = 0 ∨
        (∀ ncl, ¬ FreeCluster fs content ncl) ∧ (clst = 0 ∨ fs.nFatent.toNat ≠ 2)) :
      ChainCreated fs content clst 0 fs content
  | broken (hcounted : fs.freeClst ≠ 0)
      (hbroken : (fs.nFatent.toNat = 2 ∧ clst ≠ 0) ∨ ∃ other : UInt32, 2 ≤ other.toNat ∧
        other.toNat < fs.nFatent.toNat ∧ fatValue fs content other = 1) :
      ChainCreated fs content clst 1 fs content
  | linked (ncl : UInt32) (hcounted : fs.freeClst ≠ 0) (hfree : FreeCluster fs content ncl)
      (hclst : clst ≠ 1) :
      ChainCreated fs content clst ncl (fs.takeCluster ncl) (linkedContent fs content clst ncl)
  | lost (ncl : UInt32) (hcounted : fs.freeClst ≠ 0) (hfree : FreeCluster fs content ncl)
      (hclst : clst = 1) :
      ChainCreated fs content clst 1 fs (setFatValue fs content ncl 0xFFFFFFFF)

section

variable {io : DiskIo δ} {device : BlockDevice io} {pdrv : Drive} {fs : FatFs}
  {content : Bytes} (hsound : ¬ device.faulty) (hfatx : IsFatxFs fs) (hfats : fs.nFats ≠ 2)

include hsound hfatx hfats

theorem linkBehind_spec {clst ncl : UInt32} (hclst : clst.toNat < fs.nFatent.toNat)
    {state : VolumeState δ}
    (hshows : Shows device pdrv fs (setFatValue fs content ncl 0xFFFFFFFF) state) :
    (linkBehind io pdrv clst ncl).wp
      (fun _ after ↦ clst ≠ 1 ∧ Shows device pdrv fs (linkedContent fs content clst ncl) after)
      (fun code after ↦ code = .intErr ∧ clst = 1 ∧
        Shows device pdrv fs (setFatValue fs content ncl 0xFFFFFFFF) after) state := by
  rw [linkBehind, linkedContent, wp_ite]
  constructor
  · intro hzero
    rw [if_pos hzero, hzero]
    exact ⟨by decide, hshows⟩
  · intro hne
    rw [if_neg hne]
    refine wp_mono (putFat_shows hsound hfatx hfats hshows clst ncl) ?_ ?_
    · rintro _ linked ⟨hvalid, hlinked⟩
      refine ⟨?_, hlinked⟩
      rintro rfl
      exact hvalid (.inl (by decide))
    · rintro code failed ⟨rfl, hrefused, hfailed⟩
      rw [UInt32.lt_iff_toNat_lt, UInt32.le_iff_toNat_le, or_iff_left (by omega)] at hrefused
      have hsmall : clst.toNat < 2 := hrefused
      have hpos : clst.toNat ≠ 0 := fun hzero ↦ hne (UInt32.toNat_inj.mp hzero)
      exact ⟨rfl, UInt32.toNat_inj.mp (show clst.toNat = 1 by omega), hfailed⟩

theorem linkCluster_spec {clst ncl : UInt32} (hclst : clst.toNat < fs.nFatent.toNat)
    (hcounted : fs.freeClst ≠ 0) (hfree : FreeCluster fs content ncl) {state : VolumeState δ}
    (hshows : Shows device pdrv fs content state) :
    (linkCluster io pdrv clst ncl).wp
      (fun value after ↦ ∃ fs' content', ChainCreated fs content clst value fs' content' ∧
        Shows device pdrv fs' content' after)
      (fun _ _ ↦ False) state := by
  rw [linkCluster, wp_recover, wp_bind]
  refine wp_mono (putFat_shows hsound hfatx hfats hshows ncl 0xFFFFFFFF) ?_ ?_
  · rintro _ marked ⟨_, hmarked⟩
    rw [wp_bind]
    refine wp_mono (linkBehind_spec hsound hfatx hfats hclst hmarked) ?_ ?_
    · rintro _ linked ⟨hne, hlinked⟩
      exact ⟨fs.takeCluster ncl, _, .linked ncl hcounted hfree hne, hlinked.modify fun _ _ ↦ rfl⟩
    · rintro code failed ⟨rfl, hone, hfailed⟩
      exact ⟨fs, _, .lost ncl hcounted hfree hone, hfailed⟩
  · rintro code failed ⟨_, hrefused, _⟩
    rw [UInt32.lt_iff_toNat_lt, UInt32.le_iff_toNat_le] at hrefused
    exact absurd hrefused (not_or.mpr
      ⟨not_lt.mpr hfree.two_le, not_le.mpr hfree.lt⟩)

section

variable {clst : UInt32} (hclst : clst.toNat < fs.nFatent.toNat) (htwo : 2 ≤ fs.nFatent.toNat)
  (hlast : clst ≠ 0 → fs.nFatent.toNat ≤ (fatValue fs content clst).toNat) {state : VolumeState δ}
  (hshows : Shows device pdrv fs content state)

include hclst htwo hlast hshows

theorem startCluster_spec :
    (startCluster io pdrv clst).wp
      (fun result after ↦ (∃ scl : UInt32, result = .ok scl ∧ 1 ≤ scl.toNat ∧
          scl.toNat < fs.nFatent.toNat ∧ (scl = clst ↔ clst ≠ 0)) ∧
        Shows device pdrv fs content after)
      (fun _ _ ↦ False) state := by
  rw [startCluster, wp_bind, wp_gets, hshows.nFatent, hshows.lastClst, wp_ite]
  constructor
  · intro hzero
    have hpos (scl : UInt32) (hscl : 1 ≤ scl.toNat) : scl = clst ↔ clst ≠ 0 := by
      refine iff_of_false ?_ fun hne ↦ hne hzero
      rintro rfl
      exact absurd (hzero ▸ hscl) (by decide)
    refine ⟨⟨_, rfl, ?_⟩, hshows⟩
    split_ifs with hhint
    · exact ⟨le_refl 1, htwo, hpos 1 le_rfl⟩
    · rw [not_or, UInt32.not_le, UInt32.lt_iff_toNat_lt] at hhint
      have hone : 1 ≤ fs.lastClst.toNat :=
        pos_of_ne_zero fun hnone ↦ hhint.1 (UInt32.toNat_inj.mp hnone)
      exact ⟨hone, hhint.2, hpos _ hone⟩
  · intro hne
    have hone : 1 ≤ clst.toNat := pos_of_ne_zero fun hzero ↦ hne (UInt32.toNat_inj.mp hzero)
    have hend := hlast hne
    rw [wp_bind]
    refine wp_safe (getFat_shows hsound hfatx hfats hshows clst) ?_
    rintro cs read ⟨hcs, hread⟩
    rw [fatStatus_of_lt hfatx content hone hclst] at hcs
    have hlarge : ¬ cs < 2 := by
      rw [UInt32.lt_iff_toNat_lt, hcs]
      exact not_lt.mpr (le_trans htwo hend)
    have hstops : ¬ (cs = 0xFFFFFFFF ∨ cs < fs.nFatent) := by
      rw [not_or, UInt32.not_lt, UInt32.le_iff_toNat_le, hcs]
      exact ⟨fatValue_ne_diskErr fs content clst, hend⟩
    rw [if_neg hlarge, if_neg hstops]
    exact ⟨⟨clst, rfl, hone, hclst, iff_of_true rfl hne⟩, hread⟩

/-- What `create_chain` does to a FATX volume: it ends, and its answer tells what became of the
FAT but for the first cluster. -/
theorem createChain_spec :
    (createChain io pdrv clst).wp
      (fun value after ↦ ∃ fs' content', ChainCreated fs content clst value fs' content' ∧
        Shows device pdrv fs' content' after)
      (fun _ _ ↦ False) state := by
  have hstart := startCluster_spec hsound hfatx hfats hclst htwo hlast hshows
  rw [createChain]
  refine wp_unlessReturned _ (wp_safe hstart ?_)
  rintro _ started ⟨⟨scl, rfl, hlow, hhigh, hstretch⟩, hstarted⟩
  dsimp only
  have hfreeClst : started.fs.freeClst = fs.freeClst := hstarted.part FatFs.freeClst fun _ _ ↦ rfl
  rw [wp_bind, wp_gets, hfreeClst, wp_ite]
  refine ⟨fun hnone ↦ ⟨fs, content, .full (.inl hnone), hstarted⟩, fun hcounted ↦ ?_⟩
  refine wp_unlessReturned _ (wp_safe
    (chooseCluster_spec hsound hfatx hfats clst hlow hhigh hstarted) ?_)
  rintro result chosen ⟨hnone, hresult, hchosen⟩
  rw [hstretch] at hnone hresult
  by_cases hempty : fs.nFatent.toNat = 2 ∧ clst ≠ 0
  · rw [hnone hempty]
    exact ⟨fs, content, .broken hcounted (.inl hempty), hchosen⟩
  · cases hresult hempty with
    | found ncl hfree =>
      exact linkCluster_spec hsound hfatx hfats hclst hcounted hfree hchosen
    | full hused =>
      have hsize : clst = 0 ∨ fs.nFatent.toNat ≠ 2 := by
        rw [or_iff_not_imp_left]
        exact fun hne htwo ↦ hempty ⟨htwo, hne⟩
      exact ⟨fs, content, .full (.inr ⟨fun ncl ↦ hused ncl trivial, hsize⟩), hchosen⟩
    | broken other hother hend hone =>
      exact ⟨fs, content, .broken hcounted (.inr ⟨other, hother, hend, hone⟩), hchosen⟩

end

end

/-! ### When a chain grows -/

/-- The bytes of an entry of the FAT. -/
def entryBytes (fs : FatFs) (content : Bytes) (clst : UInt32) : List UInt8 :=
  bytesAt content (entryAddress fs clst) (entryWidth fs)

theorem entryBytes_setFatValue_of_ne {content : Bytes} {clst other val : UInt32}
    (hne : other ≠ clst) :
    entryBytes fs (setFatValue fs content clst val) other = entryBytes fs content other :=
  bytesAt_congr (setFatValue_entry hne)

theorem and_fatMask {val : UInt32} (hval : val.toNat ≤ (fatMask fs).toNat) :
    val &&& fatMask fs = val := by
  apply UInt32.toNat_inj.mp
  rw [UInt32.toNat_and]
  rw [fatMask] at hval ⊢
  split_ifs at hval ⊢
  · exact (Nat.and_two_pow_sub_one_eq_mod val.toNat 16).trans
      (Nat.mod_eq_of_lt (Nat.lt_succ_of_le hval))
  · exact (Nat.and_two_pow_sub_one_eq_mod val.toNat 28).trans
      (Nat.mod_eq_of_lt (Nat.lt_succ_of_le hval))

/-! ### The FAT after a cluster was linked -/

section

variable {fs : FatFs} {content : Bytes} {clst ncl : UInt32}

theorem nFatent_le_fatMask (hlast : fs.nFatent.toNat ≤ (fatValue fs content clst).toNat) :
    fs.nFatent.toNat ≤ (fatMask fs).toNat :=
  le_trans hlast (fatValue_le fs content clst)

theorem FreeCluster.ne_last (hfree : FreeCluster fs content ncl)
    (hlast : fs.nFatent.toNat ≤ (fatValue fs content clst).toNat) : clst ≠ ncl := by
  rintro rfl
  rw [hfree.free] at hlast
  exact absurd hlast (not_le.mpr (lt_of_le_of_lt (Nat.zero_le _) hfree.lt))

variable (hzero : clst ≠ 0)

include hzero

theorem linkedContent_eq : linkedContent fs content clst ncl =
    setFatValue fs (setFatValue fs content ncl 0xFFFFFFFF) clst ncl :=
  if_neg hzero

/-- The last cluster is followed by the new one. -/
theorem fatValue_linked_last (hfree : FreeCluster fs content ncl)
    (hlast : fs.nFatent.toNat ≤ (fatValue fs content clst).toNat) :
    fatValue fs (linkedContent fs content clst ncl) clst = ncl := by
  have hmask := nFatent_le_fatMask hlast
  have hlt := hfree.lt
  rw [linkedContent_eq hzero, fatValue_setFatValue_self]
  exact and_fatMask (by omega)

/-- The new cluster is the last one. -/
theorem fatValue_linked_new (hfree : FreeCluster fs content ncl)
    (hlast : fs.nFatent.toNat ≤ (fatValue fs content clst).toNat) :
    fatValue fs (linkedContent fs content clst ncl) ncl = fatMask fs := by
  rw [linkedContent_eq hzero, fatValue_setFatValue_of_ne (hfree.ne_last hlast).symm,
    fatValue_setFatValue_self, fatMask]
  split_ifs
  · rfl
  · rfl

theorem fatValue_linked_of_ne {other : UInt32} (hclst : other ≠ clst) (hncl : other ≠ ncl) :
    fatValue fs (linkedContent fs content clst ncl) other = fatValue fs content other := by
  rw [linkedContent_eq hzero, fatValue_setFatValue_of_ne hclst, fatValue_setFatValue_of_ne hncl]

/-- Only the entries of the two clusters change. -/
theorem linkedContent_outside {address : ℕ}
    (hclst : address < entryAddress fs clst ∨ entryAddress fs clst + entryWidth fs ≤ address)
    (hncl : address < entryAddress fs ncl ∨ entryAddress fs ncl + entryWidth fs ≤ address) :
    linkedContent fs content clst ncl address = content address := by
  rw [linkedContent_eq hzero, setFatValue_outside hclst, setFatValue_outside hncl]

end

/-! ### The chain grows -/

/-- A mounted FATX volume: its window, changed or not, holds the sector that it names. -/
structure FatxMounted {io : DiskIo δ} (device : BlockDevice io) (pdrv : Drive)
    (state : VolumeState δ) : Prop where
  fatx : IsFatxFs state.fs
  nFats : state.fs.nFats = 1
  window : ∀ index < 512, state.fs.win index =
    volumeContent device pdrv state (512 * state.fs.winsect.toNat + index)

/-- A cluster was taken from the free ones and linked behind the last cluster of a chain. -/
structure ChainGrown {io : DiskIo δ} (device : BlockDevice io) (pdrv : Drive) (clst ncl : UInt32)
    (before after : VolumeState δ) : Prop where
  free : FreeCluster before.fs (volumeContent device pdrv before) ncl
  successor : ∃ read, getFat io pdrv clst after = (.ok ncl, read)
  last : ∃ status read, getFat io pdrv ncl after = (.ok status, read) ∧ before.fs.nFatent ≤ status
  others : ∀ other < before.fs.nFatent, other ≠ clst → other ≠ ncl →
    entryBytes before.fs (volumeContent device pdrv after) other =
      entryBytes before.fs (volumeContent device pdrv before) other

/-- `create_chain` extends the chain that ends in a cluster, if it can, and leaves the FAT alone if
it does not. -/
def GrowsChain {io : DiskIo δ} (device : BlockDevice io) (pdrv : Drive) (clst : UInt32)
    (state : VolumeState δ) : Prop :=
  ∃ value after, createChain io pdrv clst state = (.ok value, after) ∧
    ((∃ ncl, FreeCluster state.fs (volumeContent device pdrv state) ncl) → state.fs.freeClst ≠ 0 →
      ChainGrown device pdrv clst value state after) ∧
    ((¬ ∃ ncl, FreeCluster state.fs (volumeContent device pdrv state) ncl) → value = 0) ∧
    (value = 0 ∨ value = 1 → ∀ other < state.fs.nFatent,
      entryBytes state.fs (volumeContent device pdrv after) other =
        entryBytes state.fs (volumeContent device pdrv state) other)

section

variable {io : DiskIo δ} {device : BlockDevice io} {pdrv : Drive} {state : VolumeState δ}

theorem FatxMounted.shows (hmounted : FatxMounted device pdrv state) :
    Shows device pdrv state.fs (volumeContent device pdrv state) state :=
  ⟨rfl, rfl, hmounted.window⟩

/-- The volume after a new cluster was linked. -/
theorem chainGrown_of_shows (hsound : ¬ device.faulty) (hmounted : FatxMounted device pdrv state)
    {clst ncl : UInt32} (haccepted : Accepted state.fs clst)
    (hlast : state.fs.nFatent ≤ fatValue state.fs (volumeContent device pdrv state) clst)
    (hfree : FreeCluster state.fs (volumeContent device pdrv state) ncl)
    {after : VolumeState δ}
    (hafter : Shows device pdrv (state.fs.takeCluster ncl)
      (linkedContent state.fs (volumeContent device pdrv state) clst ncl) after) :
    ChainGrown device pdrv clst ncl state after := by
  have hfats : (state.fs.takeCluster ncl).nFats ≠ 2 := by
    rw [show (state.fs.takeCluster ncl).nFats = 1 from hmounted.nFats]
    decide
  have hfatx : IsFatxFs (state.fs.takeCluster ncl) := hmounted.fatx
  rw [UInt32.le_iff_toNat_le] at hlast
  obtain ⟨hpos, hend⟩ := (hmounted.fatx.accepted_iff clst).mp haccepted
  have htwo := hfree.two_le
  have hzero : clst ≠ 0 := by
    rintro rfl
    exact absurd hpos (by decide)
  refine ⟨hfree, ?_, ?_, fun other hother hclst hncl ↦ ?_⟩
  · obtain ⟨_, read, hrun, hvalue, _⟩ :=
      exists_ok (getFat_shows hsound hfatx hfats hafter clst)
    rw [fatStatus_of_lt hfatx _ hpos hend] at hvalue
    refine ⟨read, hrun.trans ?_⟩
    rw [hvalue]
    exact congrArg (fun value ↦ (Except.ok value, read))
      (@fatValue_linked_last state.fs _ clst ncl hzero hfree hlast)
  · obtain ⟨status, read, hrun, hvalue, _⟩ :=
      exists_ok (getFat_shows hsound hfatx hfats hafter ncl)
    rw [fatStatus_of_lt hfatx _ (by omega) hfree.lt] at hvalue
    refine ⟨status, read, hrun, ?_⟩
    have hlastValue : status = fatMask state.fs :=
      hvalue.trans (@fatValue_linked_new state.fs _ clst ncl hzero hfree hlast)
    rw [UInt32.le_iff_toNat_le, hlastValue]
    exact nFatent_le_fatMask hlast
  · rw [hafter.bytes, linkedContent_eq hzero]
    exact (entryBytes_setFatValue_of_ne hclst).trans (entryBytes_setFatValue_of_ne hncl)

end

/-- Behind the last cluster of a chain `create_chain` does what it should, but for the first
cluster of the volume: that chain is only left alone if the count of free clusters is zero, or if
no cluster is free and there is a cluster.

Assumes: the disk does not fail and no entry of the FAT holds the value 1. -/
theorem createChain_grows_iff {io : DiskIo δ} (device : BlockDevice io) (hsound : ¬ device.faulty)
    (pdrv : Drive) (state : VolumeState δ) (hmounted : FatxMounted device pdrv state)
    (hone : ∀ other, Accepted state.fs other →
      fatValue state.fs (volumeContent device pdrv state) other ≠ 1)
    (clst : UInt32) (haccepted : Accepted state.fs clst)
    (hlast : state.fs.nFatent ≤ fatValue state.fs (volumeContent device pdrv state) clst) :
    GrowsChain device pdrv clst state ↔ clst ≠ 1 ∨ state.fs.freeClst = 0 ∨
      (∀ ncl, ¬ FreeCluster state.fs (volumeContent device pdrv state) ncl) ∧
        state.fs.nFatent ≠ 2 := by
  obtain ⟨hpos, hend⟩ := (hmounted.fatx.accepted_iff clst).mp haccepted
  have htwo : state.fs.nFatent ≠ 2 ↔ state.fs.nFatent.toNat ≠ 2 :=
    not_congr ⟨fun heq ↦ congrArg UInt32.toNat heq, fun heq ↦ UInt32.toNat_inj.mp heq⟩
  obtain ⟨value, after, hrun, fs', content', hcreated, hafter⟩ := exists_ok
    (createChain_spec hsound hmounted.fatx (by rw [hmounted.nFats]; decide) hend (by omega)
      (fun _ ↦ UInt32.le_iff_toNat_le.mp hlast) hmounted.shows)
  have hread := hafter.bytes
  rw [htwo]
  constructor
  · rintro ⟨value', after', hrun', hgrown, hfull, _⟩
    rw [hrun] at hrun'
    cases hrun'
    by_contra hcondition
    rw [not_or, not_or, not_and_or, not_not, not_not, not_forall_not] at hcondition
    obtain ⟨hclst, hcounted, hfree⟩ := hcondition
    cases hcreated with
    | full hnone =>
      rcases hnone with hnone | ⟨hnone, hzero | hsize⟩
      · exact hcounted hnone
      · exact absurd (hclst.symm.trans hzero) (by decide)
      · rcases hfree with ⟨ncl, hfree⟩ | hempty
        · exact hnone ncl hfree
        · exact hsize hempty
    | linked ncl _ _ hother => exact hother hclst
    | broken _ _ | lost _ _ _ _ =>
      by_cases hsome : ∃ ncl, FreeCluster state.fs (volumeContent device pdrv state) ncl
      · exact absurd (hgrown hsome hcounted).free.two_le (by decide)
      · exact absurd (hfull hsome) (by decide)
  · intro hcondition
    refine ⟨value, after, hrun, ?_⟩
    cases hcreated with
    | full hnone =>
      refine ⟨fun hsome hcounted ↦ ?_, fun _ ↦ rfl, fun _ other _ ↦ by rw [hread]⟩
      obtain ⟨ncl, hfree⟩ := hsome
      exact absurd hfree ((hnone.resolve_left hcounted).1 ncl)
    | broken hcounted hbroken =>
      exfalso
      rcases hbroken with ⟨hsize, _⟩ | ⟨other, hother, hlt, hvalue⟩
      · rcases hcondition with hclst | hnone | hfew
        · exact hclst (UInt32.toNat_inj.mp (show clst.toNat = 1 by omega))
        · exact hcounted hnone
        · exact hfew.2 hsize
      · exact hone other ((hmounted.fatx.accepted_iff other).mpr
          ⟨Nat.le_of_succ_le hother, hlt⟩) hvalue
    | linked ncl hcounted hfree _ =>
      refine ⟨fun _ _ ↦ chainGrown_of_shows hsound hmounted haccepted hlast hfree hafter,
        fun hnone ↦ absurd ⟨_, hfree⟩ hnone, fun hsmall ↦ ?_⟩
      have hlow := hfree.two_le
      rcases hsmall with rfl | rfl
      · exact absurd hlow (by decide)
      · exact absurd hlow (by decide)
    | lost ncl hcounted hfree hclst =>
      rcases hcondition with hother | hnone | hfew
      · exact absurd hclst hother
      · exact absurd hnone hcounted
      · exact absurd hfree (hfew.1 ncl)

/-- A disk with a FATX volume of three clusters from sector 1024 on. The first two are used, each
by a chain of its own. -/
def smallDisk : RamDisk where
  sectorCount := xboxExtendStartLba.toUInt64
  bytes := writeFields [(512 * 1032, [0xF8, 0xFF, 0xFF, 0xFF, 0xFF, 0xFF])] fun _ ↦ 0

/-- The volume with its first sector in the window. -/
def smallVolume : VolumeState RamDisk where
  fs :=
    { blankFs with
      fsTypex := some .fatx16
      nFats := 1
      csize := 32
      lastClst := 0xFFFFFFFF
      freeClst := 0xFFFFFFFF
      nFatent := 5
      fsize := 8
      volbase := 1024
      fatbase := 1032
      dirbase := 1
      database := 1040
      winsect := 1024
      win := fun index ↦ smallDisk.bytes (512 * 1024 + index)
      isFATX := true }
  system :=
    { drive := fun _ ↦ smallDisk
      fatxPartTable := fun _ ↦ backupPartTable
      fatxPartTableRead := fun _ ↦ true
      fatFs := fun _ ↦ none }

theorem smallVolume_mounted : FatxMounted ramDevice .master smallVolume :=
  ⟨rfl, rfl, fun _ _ ↦ rfl⟩

theorem smallVolume_accepted {clst : UInt32} (haccepted : Accepted smallVolume.fs clst) :
    clst = 1 ∨ clst = 2 ∨ clst = 3 ∨ clst = 4 := by
  obtain ⟨hlow, hhigh⟩ := (smallVolume_mounted.fatx.accepted_iff clst).mp haccepted
  change clst.toNat < 5 at hhigh
  simp only [← UInt32.toNat_inj, UInt32.reduceToNat]
  omega

/-- The chain of the second cluster grows by the third. -/
theorem smallVolume_grows : GrowsChain ramDevice .master 2 smallVolume := by
  have hone (other : UInt32) (hother : Accepted smallVolume.fs other) :
      fatValue smallVolume.fs (volumeContent ramDevice .master smallVolume) other ≠ 1 := by
    rcases smallVolume_accepted hother with rfl | rfl | rfl | rfl <;> decide +kernel
  have haccepted : Accepted smallVolume.fs 2 :=
    (smallVolume_mounted.fatx.accepted_iff 2).mpr (by decide)
  exact (createChain_grows_iff ramDevice id .master smallVolume smallVolume_mounted hone 2
    haccepted (by decide +kernel)).mpr (.inl (by decide))

/-- The chain of the root directory does not grow, and the third cluster is lost. -/
theorem smallVolume_root_not_grows :
    (∃ after, createChain ramDisk .master 1 smallVolume = (.ok 1, after) ∧
      fatValue smallVolume.fs (volumeContent ramDevice .master after) 3 = 0xFFFF) ∧
    ¬ GrowsChain ramDevice .master 1 smallVolume := by
  have hrun : (createChain ramDisk .master 1 smallVolume).1 = .ok 1 := by
    rfl
  refine ⟨⟨(createChain ramDisk .master 1 smallVolume).2, Prod.ext hrun rfl, ?_⟩, ?_⟩
  · decide +kernel
  · rintro ⟨value, after, hgrows, hgrown, _⟩
    rw [hgrows] at hrun
    cases hrun
    have hfree : FreeCluster smallVolume.fs (volumeContent ramDevice .master smallVolume) 3 :=
      ⟨by decide, by decide, by decide +kernel⟩
    exact absurd (hgrown ⟨3, hfree⟩ (by decide)).free.two_le (by decide)

end XBlast.Fatx
