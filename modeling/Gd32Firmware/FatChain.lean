import Gd32Firmware.FatEntry
import Gd32Firmware.LinkTable
import Mathlib.Order.Interval.Finset.Nat

/-!
# Cluster chains

`create_chain` makes a cluster chain or makes one longer, `remove_chain` gives back a chain or
the rest of one.

The loop of `remove_chain` follows the entries. It comes to an end on every FAT, also where they
run in a circle, as it meets a cluster again that it has given back, and leaves every entry as it
was or free (`removeLoop_returns`); only a drive that fails between the two bytes of an entry of
FAT12 leaves that entry as something else. On a chain it gives back the clusters of the chain and
no other ones (`removeLoop_chain`).
-/

namespace Gd32Firmware

open Program FatGeometry

variable {σ : Type} (d : Storage σ)

/-! ## The functions -/

/-- One more free cluster, if their number is known. -/
def countFreed : Program (Volume σ) Unit :=
  modifyFs fun fs =>
    if fs.freeClst < fs.nFatent - 2 then
      { fs with freeClst := fs.freeClst + 1, fsiFlag := fs.fsiFlag ||| 1 }
    else fs

/-- The loop of `remove_chain` : one cluster is given back. -/
def removeBody (clst : UInt32) : Program (Volume σ) (UInt32 ⊕ FResult) := do
  let nxt ← getFat d clst
  if nxt = 0 then pure (.inr .frOk)
  else if nxt = 1 then pure (.inr .frIntErr)
  else if nxt = diskError then pure (.inr .frDiskErr)
  else
    let res ← putFat d clst 0
    if res = .frOk then
      countFreed
      if nxt < (← getFs).nFatent then pure (.inl nxt) else pure (.inr .frOk)
    else pure (.inr res)

def removeLoop (clst : UInt32) : Program (Volume σ) FResult := do
  iterate (removeBody d) ((← getFs).nFatent.toNat + 1) clst

def removeChain (clst pclst : UInt32) : Program (Volume σ) FResult := do
  let fs ← getFs
  if clst < 2 ∨ fs.nFatent ≤ clst then pure .frIntErr
  else if pclst ≠ 0 then
    let res ← putFat d pclst 0xFFFFFFFF
    if res = .frOk then removeLoop d clst else pure res
  else removeLoop d clst

/-- One step of the search for a free cluster. It goes on, finds one (`ok`), or is the end of
`create_chain` with that value (`error`). -/
def searchBody (scl ncl : UInt32) : Program (Volume σ) (UInt32 ⊕ Except UInt32 UInt32) := do
  let fs ← getFs
  let wrap := fs.nFatent ≤ ncl + 1
  let ncl := if wrap then 2 else ncl + 1
  if wrap ∧ scl < ncl then pure (.inr (.error 0))
  else
    let cs ← getFat d ncl
    if cs = 0 then pure (.inr (.ok ncl))
    else if cs = 1 ∨ cs = diskError then pure (.inr (.error cs))
    else if ncl = scl then pure (.inr (.error 0))
    else pure (.inl ncl)

def searchFree (scl : UInt32) : Program (Volume σ) (Except UInt32 UInt32) := do
  iterate (searchBody d scl) (2 * (← getFs).nFatent.toNat + 1) scl

/-- The cluster that `create_chain` takes : the one behind `clst`, if that is free. -/
def findFree (clst scl : UInt32) : Program (Volume σ) (Except UInt32 UInt32) := do
  let fs ← getFs
  if scl = clst then
    let ncl := if fs.nFatent ≤ scl + 1 then 2 else scl + 1
    let cs ← getFat d ncl
    if cs = 1 ∨ cs = diskError then pure (.error cs)
    else if cs ≠ 0 then
      searchFree d (if 2 ≤ fs.lastClst ∧ fs.lastClst < fs.nFatent then fs.lastClst else scl)
    else pure (.ok ncl)
  else searchFree d scl

/-- One free cluster less, if their number is known. -/
def countTaken (ncl : UInt32) : Program (Volume σ) Unit :=
  modifyFs fun fs =>
    if 0 < fs.freeClst ∧ fs.freeClst ≤ fs.nFatent - 2 then
      { fs with lastClst := ncl, freeClst := fs.freeClst - 1, fsiFlag := fs.fsiFlag ||| 1 }
    else { fs with lastClst := ncl }

/-- The new cluster ends the chain, and `clst` is followed by it. -/
def linkNew (clst ncl : UInt32) : Program (Volume σ) FResult := do
  let res ← putFat d ncl 0xFFFFFFFF
  if res = .frOk ∧ clst ≠ 0 then putFat d clst ncl else pure res

/-- The part of `create_chain` from the test of the number of free clusters on. -/
def takeCluster (clst scl : UInt32) : Program (Volume σ) UInt32 := do
  if (← getFs).freeClst = 0 then pure 0
  else
    match ← findFree d clst scl with
    | .error val => pure val
    | .ok ncl => do
      let res ← linkNew d clst ncl
      if res = .frOk then
        countTaken ncl
        pure ncl
      else pure (if res = .frDiskErr then diskError else 1)

def createChain (clst : UInt32) : Program (Volume σ) UInt32 := do
  let fs ← getFs
  if clst = 0 then
    takeCluster d clst
      (if fs.lastClst = 0 ∨ fs.nFatent ≤ fs.lastClst then 1 else fs.lastClst)
  else
    let cs ← getFat d clst
    if cs < 2 then pure 1
    else if cs = diskError then pure cs
    else if cs < fs.nFatent then pure cs
    else takeCluster d clst clst

/-! ## What changes -/

/-- The fields that tell where to look for free clusters, and how many there are. -/
def FatFs.alloc (fs : FatFs) : UInt32 × UInt32 × UInt8 :=
  (fs.lastClst, fs.freeClst, fs.fsiFlag)

/-- Outside the FAT nothing that is seen has changed. -/
structure Volume.Alters (v v' : Volume σ) : Prop where
  geometry : v'.fs.toFatGeometry = v.fs.toFatGeometry
  moves : v.fs.Moves v.fs.winsect v'.fs.winsect
  view : ∀ s, ¬ v.fs.InFat s → v'.view d s = v.view d s
  coherent : v'.Coherent d

/-- What an entry says : free, the end of a chain, or the next cluster. -/
def FatGeometry.linkOf (g : FatGeometry) (e : UInt32) : Link UInt32 :=
  if e = 0 then .free else if g.nFatent ≤ e then .last else .next e

/-- The FAT as a table of links. -/
def Volume.link (v : Volume σ) (c : UInt32) : Link UInt32 :=
  v.fs.linkOf (v.entry d c)

/-- Number of free clusters, by the entries of the FAT. -/
def FatGeometry.freeCount (g : FatGeometry) (e : UInt32 → UInt32) : ℕ :=
  ((Finset.Ico 2 g.nFatent.toNat).filter fun c => e (UInt32.ofNat c) = 0).card

/-- If the number of free clusters is known, it is right. -/
def Volume.CountOk (v : Volume σ) : Prop :=
  v.fs.freeClst ≤ v.fs.nFatent - 2 →
    v.fs.freeClst.toNat = v.fs.freeCount (v.entry d)

section Changes

variable {d} {v v' v'' : Volume σ} {image : UInt32 → Sector} {g : FatGeometry} {c clst : UInt32}

namespace Volume

theorem Alters.refl (hc : v.Coherent d) : Alters d v v :=
  ⟨rfl, .inl rfl, fun _ _ => rfl, hc⟩

theorem Alters.trans (h : Alters d v v') (h' : Alters d v' v'') : Alters d v v'' := by
  refine ⟨h'.geometry.trans h.geometry, h.moves.trans ?_, fun s hs => ?_, h'.coherent⟩
  · rw [← h.geometry]
    exact h'.moves
  · rw [h'.view s (by rwa [h.geometry]), h.view s hs]

theorem Reads.alters (h : v.Reads d v') : Alters d v v' :=
  ⟨h.geometry, h.moves, fun s _ => by rw [h.view], h.coherent⟩

theorem Shows.alloc (h : v.Shows d v' image) : v'.fs.alloc = v.fs.alloc := by
  rw [h.fs]
  rfl

theorem Shows.entry_eq (h : v.Same d v') : v'.entry d = v.entry d := by
  funext c
  rw [entry, entry, h.geometry, h.view]

end Volume

theorem fatEntry_le (t : FsType) (b : ℕ → UInt8) (n : ℕ) :
    (fatEntry t b n).toNat ≤ 0x0FFFFFFF := by
  cases t with
  | blank => simp [fatEntry]
  | fat12 =>
    have h0 := (b (FsType.fat12.offset n)).toNat_lt
    have h1 := (b (FsType.fat12.offset n + 1)).toNat_lt
    rw [fatEntry, toNat_entry12]
    split_ifs <;> omega
  | fat16 =>
    have h := (joinWord (b (FsType.fat16.offset n)) (b (FsType.fat16.offset n + 1))).toNat_lt
    rw [fatEntry, UInt16.toNat_toUInt32]
    omega
  | fat32 =>
    rw [fatEntry, toNat_and_mask28]
    omega

/-- No entry is the number that says that the drive failed. -/
theorem entry_ne_diskError : v.entry d c ≠ diskError := by
  intro h
  have hle := fatEntry_le v.fs.fsType (v.fs.fatBytes (v.view d)) c.toNat
  rw [show fatEntry v.fs.fsType (v.fs.fatBytes (v.view d)) c.toNat = diskError from h] at hle
  exact absurd hle (by decide)

/-- What `put_fat` does to the entries. When the drive fails, an entry of FAT12 may be left with
one of its two bytes written. -/
theorem putFat_entry (hg : v.fs.WellFormed) (hc : v.Coherent d) (hclst : v.fs.IsCluster clst)
    (val : UInt32) :
    Returns (putFat d clst val) v fun r v' =>
      v.Alters d v' ∧ v'.fs.alloc = v.fs.alloc ∧
        ((r = .frOk ∧ ∀ c, v'.entry d c =
          if c = clst then val &&& v.fs.fsType.mask else v.entry d c) ∨
        (r = .frDiskErr ∧ ¬ d.Reliable ∧
          ∀ c, (v.fs.fsType = .fat12 → c ≠ clst) → v'.entry d c = v.entry d c)) := by
  refine (putFat_returns hg hc hclst val).imp ?_
  rintro r v' ⟨image, hput⟩
  refine ⟨⟨hput.shows.geometry, hput.moves, fun s hs => by rw [hput.shows.view, hput.frame s hs],
    hput.shows.coherent⟩, hput.shows.alloc, ?_⟩
  obtain ⟨rfl, hbytes⟩ | ⟨rfl, hd, hsame, hother⟩ := hput.result
  · refine .inl ⟨rfl, fun c => ?_⟩
    rw [Volume.entry, FatGeometry.entry, hput.shows.geometry, hput.shows.view, hbytes,
      fatEntry_fatStore hg.mounted]
    simp only [UInt32.toNat_inj]
    rfl
  · refine .inr ⟨rfl, hd, fun c hne => ?_⟩
    rw [Volume.entry, hput.shows.geometry, hput.shows.view]
    by_cases htype : v.fs.fsType = .fat12
    · exact hother c (hne htype)
    · rw [hsame htype]
      rfl

theorem toNat_ofNat_cluster {n : ℕ} (hn : n < g.nFatent.toNat) : (UInt32.ofNat n).toNat = n :=
  UInt32.toNat_ofNat_of_lt' (hn.trans g.nFatent.toNat_lt)

/-- A cluster that is given back counts. -/
theorem freeCount_succ {e e' : UInt32 → UInt32} (hclst : g.IsCluster clst) (hused : e clst ≠ 0)
    (hfree : e' clst = 0) (hother : ∀ c, g.IsCluster c → c ≠ clst → (e' c = 0 ↔ e c = 0)) :
    g.freeCount e' = g.freeCount e + 1 := by
  have hnat := isCluster_toNat.1 hclst
  have hself : UInt32.ofNat clst.toNat = clst := UInt32.ofNat_toNat
  have hfilter : (Finset.Ico 2 g.nFatent.toNat).filter (fun c => e' (UInt32.ofNat c) = 0) =
      insert clst.toNat
        ((Finset.Ico 2 g.nFatent.toNat).filter fun c => e (UInt32.ofNat c) = 0) := by
    ext n
    simp only [Finset.mem_insert, Finset.mem_filter, Finset.mem_Ico]
    by_cases hn : n = clst.toNat
    · subst hn
      simp [hself, hfree, hnat]
    · have hne : UInt32.ofNat n ≠ clst ∨ ¬ (2 ≤ n ∧ n < g.nFatent.toNat) := by
        by_cases hin : n < g.nFatent.toNat
        · exact .inl fun h => hn (by rw [← h, toNat_ofNat_cluster hin])
        · exact .inr fun h => hin h.2
      simp only [hn, false_or]
      refine and_congr_right fun hin => ?_
      have hcluster : g.IsCluster (UInt32.ofNat n) := by
        rw [isCluster_toNat, toNat_ofNat_cluster hin.2]
        exact hin
      exact hother _ hcluster (hne.resolve_right (absurd hin))
  rw [freeCount, hfilter, Finset.card_insert_of_notMem, freeCount]
  simp [hself, hused]

theorem freeCount_congr {e e' : UInt32 → UInt32}
    (h : ∀ c, g.IsCluster c → (e' c = 0 ↔ e c = 0)) : g.freeCount e' = g.freeCount e := by
  rw [freeCount, freeCount]
  congr 1
  refine Finset.filter_congr fun n hn => h _ ?_
  have hn' := Finset.mem_Ico.1 hn
  rw [isCluster_toNat, toNat_ofNat_cluster hn'.2]
  exact hn'

theorem freeCount_le (e : UInt32 → UInt32) : g.freeCount e ≤ g.nFatent.toNat - 2 := by
  refine (Finset.card_filter_le _ _).trans ?_
  rw [Nat.card_Ico]

/-- A volume with a free cluster. -/
theorem freeCount_pos {e : UInt32 → UInt32} (hclst : g.IsCluster clst) (hfree : e clst = 0) :
    0 < g.freeCount e := by
  have hnat := isCluster_toNat.1 hclst
  refine Finset.card_pos.2 ⟨clst.toNat, ?_⟩
  simp [hnat, hfree]

end Changes

/-! ## Giving clusters back -/

section Remove

variable {d} {v v' : Volume σ} {clst : UInt32}

theorem toNat_clusters (hg : v.fs.WellFormed) :
    (v.fs.nFatent - 2).toNat = v.fs.nFatent.toNat - 2 := by
  have hmin := hg.minEntries
  have hlt := v.fs.nFatent.toNat_lt
  rw [UInt32.toNat_sub]
  simp only [UInt32.reduceToNat]
  omega

/-- Counting a cluster changes nothing that is seen. -/
theorem setFs_same {f : FatFs → FatFs} (hc : v.Coherent d)
    (hgeom : (f v.fs).toFatGeometry = v.fs.toFatGeometry)
    (hwin : (f v.fs).wflag = v.fs.wflag ∧ (f v.fs).winsect = v.fs.winsect ∧
      (f v.fs).win = v.fs.win) :
    v.Alters d (v.setFs f) ∧ (v.setFs f).entry d = v.entry d := by
  obtain ⟨hflag, hsect, hwin⟩ := hwin
  have hview : (v.setFs f).view d = v.view d := by
    funext s
    simp only [Volume.view, Volume.setFs, hgeom, hflag, hsect, hwin]
  refine ⟨⟨hgeom, .inl hsect, fun s _ => congrFun hview s, ?_⟩, ?_⟩
  · simpa only [Volume.Coherent, Volume.setFs, hgeom, hflag, hsect, hwin] using hc
  · funext c
    simp only [Volume.entry, hview]
    simp only [Volume.setFs, hgeom]

/-- The number of free clusters stays right when one more is counted. -/
theorem countFreed_returns (hg : v.fs.WellFormed) (hc : v.Coherent d) :
    Returns countFreed v fun _ v' =>
      v.Alters d v' ∧ v'.entry d = v.entry d ∧
        ∀ n, (v.fs.freeClst ≤ v.fs.nFatent - 2 → v.fs.freeClst.toNat = n) →
          n + 1 ≤ v.fs.nFatent.toNat - 2 →
          (v'.fs.freeClst ≤ v.fs.nFatent - 2 → v'.fs.freeClst.toNat = n + 1) := by
  have hsame := setFs_same (v := v) (d := d)
    (f := fun fs => if fs.freeClst < fs.nFatent - 2 then
      { fs with freeClst := fs.freeClst + 1, fsiFlag := fs.fsiFlag ||| 1 } else fs) hc
    (by split_ifs <;> rfl) (by split_ifs <;> exact ⟨rfl, rfl, rfl⟩)
  refine ⟨hsame.1, hsame.2, fun n hn hle hle' => ?_⟩
  have hclusters := toNat_clusters hg
  simp only [Volume.setFs, UInt32.lt_iff_toNat_lt, UInt32.le_iff_toNat_le] at hle' hn ⊢
  split_ifs at hle' ⊢ with hlt
  · have heq := hn (by omega)
    rw [UInt32.toNat_add, UInt32.toNat_one]
    have := v.fs.nFatent.toNat_lt
    omega
  · have heq := hn hle'
    omega

/-- What `remove_chain` does to the cluster. -/
theorem removeBody_returns (hg : v.fs.WellFormed) (hc : v.Coherent d)
    (hclst : v.fs.IsCluster clst) :
    Returns (removeBody d clst) v fun r v' =>
      v.Alters d v' ∧
        ((∃ nxt, r = .inl nxt ∧ v.entry d clst = nxt ∧ v.fs.IsCluster nxt ∧
            v'.entry d = Function.update (v.entry d) clst 0 ∧ (v.CountOk d → v'.CountOk d)) ∨
          (r = .inr .frOk ∧ v.fs.nFatent ≤ v.entry d clst ∧
            v'.entry d = Function.update (v.entry d) clst 0 ∧ (v.CountOk d → v'.CountOk d)) ∨
          (r = .inr .frOk ∧ v.entry d clst = 0 ∧
            v'.entry d = v.entry d ∧ (v.CountOk d → v'.CountOk d)) ∨
          (r = .inr .frIntErr ∧ v.entry d clst = 1 ∧
            v'.entry d = v.entry d ∧ (v.CountOk d → v'.CountOk d)) ∨
          (r = .inr .frDiskErr ∧ ¬ d.Reliable ∧
            ∀ c, (v.fs.fsType = .fat12 → c ≠ clst) → v'.entry d c = v.entry d c)) := by
  unfold removeBody
  refine Returns.bind (getFat_returns hg hc hclst) ?_
  rintro nxt v₁ ⟨hsame, hnxt⟩
  have hcount : v.CountOk d → v₁.CountOk d := by
    intro h
    have halloc := hsame.fs
    rw [Volume.CountOk, hsame.entry_eq, halloc]
    exact h
  refine Returns.ite (fun h0 => ?_) fun h0 => Returns.ite (fun h1 => ?_) fun h1 =>
    Returns.ite (fun herr => ?_) fun herr => ?_
  · obtain rfl | ⟨rfl, -⟩ := hnxt
    · exact ⟨hsame.alters, .inr (.inr (.inl ⟨rfl, h0, hsame.entry_eq, hcount⟩))⟩
    · exact absurd h0 (by decide)
  · obtain rfl | ⟨rfl, -⟩ := hnxt
    · exact ⟨hsame.alters, .inr (.inr (.inr (.inl ⟨rfl, h1, hsame.entry_eq, hcount⟩)))⟩
    · exact absurd h1 (by decide)
  · obtain rfl | ⟨rfl, hd⟩ := hnxt
    · exact absurd herr entry_ne_diskError
    · exact ⟨hsame.alters, .inr (.inr (.inr (.inr ⟨rfl, hd, fun c _ => by rw [hsame.entry_eq]⟩)))⟩
  obtain rfl | ⟨rfl, -⟩ := hnxt
  swap
  · exact absurd rfl herr
  have hg₁ := hg
  have hclst₁ := hclst
  rw [← hsame.geometry] at hg₁ hclst₁
  refine Returns.bind (putFat_entry hg₁ hsame.coherent hclst₁ 0) ?_
  rintro r v₂ ⟨halters, halloc, hput⟩
  have hv₂ := hsame.alters.trans halters
  refine Returns.ite (fun hok => ?_) fun hne => ?_
  swap
  · obtain ⟨rfl, -⟩ | ⟨rfl, hd⟩ := hput
    · exact absurd rfl hne
    · refine ⟨hv₂, .inr (.inr (.inr (.inr ⟨rfl, hd.1, fun c hne => ?_⟩)))⟩
      rw [← hsame.geometry] at hne
      rw [hd.2 c hne, hsame.entry_eq]
  obtain ⟨-, hentry⟩ | ⟨rfl, -⟩ := hput
  swap
  · exact absurd hok (by decide)
  have hentry₂ : v₂.entry d = Function.update (v.entry d) clst 0 := by
    funext c
    rw [hentry c, Function.update_apply, hsame.entry_eq]
    simp
  have hg₂ := hg
  rw [← hv₂.geometry] at hg₂
  refine Returns.bind (countFreed_returns hg₂ halters.coherent) ?_
  rintro - v₃ ⟨halters', hentry', hcount'⟩
  have hv₃ := hv₂.trans halters'
  have hentry₃ : v₃.entry d = Function.update (v.entry d) clst 0 := hentry'.trans hentry₂
  have hcount₃ : v.CountOk d → v₃.CountOk d := by
    intro h
    have hsucc : v.fs.freeCount (v₃.entry d) = v.fs.freeCount (v.entry d) + 1 := by
      refine freeCount_succ hclst h0 (by rw [hentry₃, Function.update_self]) fun c _ hne => ?_
      rw [hentry₃, Function.update_of_ne hne]
    have hle := freeCount_le (g := v.fs.toFatGeometry) (v₃.entry d)
    have hfree : v₂.fs.freeClst = v.fs.freeClst :=
      congrArg (fun a => a.2.1) (halloc.trans hsame.alloc)
    rw [Volume.CountOk, hv₃.geometry, hsucc]
    rw [hv₂.geometry, hfree] at hcount'
    exact hcount' _ h (by omega)
  rw [returns_bind, returns_getFs, hv₃.geometry]
  refine Returns.ite (fun hlt => ?_) fun hge => ?_
  · refine ⟨hv₃, .inl ⟨_, rfl, rfl, ⟨?_, hlt⟩, hentry₃, hcount₃⟩⟩
    rw [UInt32.le_iff_toNat_le]
    have hne0 : (v.entry d clst).toNat ≠ 0 := fun h => h0 (UInt32.toNat_inj.1 h)
    have hne1 : (v.entry d clst).toNat ≠ 1 := fun h => h1 (UInt32.toNat_inj.1 h)
    simp only [UInt32.reduceToNat]
    omega
  · exact ⟨hv₃, .inr (.inl ⟨rfl, UInt32.not_lt.1 hge, hentry₃, hcount₃⟩)⟩

/-- The rule for the loop of `remove_chain`, which ends on every FAT : an invariant of the
cluster and the entries, which giving the cluster back keeps. -/
theorem removeLoop_rule (hg : v.fs.WellFormed) (hc : v.Coherent d) (hclst : v.fs.IsCluster clst)
    {J : UInt32 → (UInt32 → UInt32) → Prop} {R : FResult → (UInt32 → UInt32) → Prop}
    (hstart : J clst (v.entry d))
    (hnext : ∀ c e, J c e → v.fs.IsCluster (e c) → J (e c) (Function.update e c 0))
    (hlast : ∀ c e, J c e → v.fs.nFatent ≤ e c → R .frOk (Function.update e c 0))
    (hfree : ∀ c e, J c e → e c = 0 → R .frOk e)
    (hbad : ∀ c e, J c e → e c = 1 → R .frIntErr e)
    {E : (UInt32 → UInt32) → Prop}
    (herr : ∀ c e e', J c e → (∀ x, (v.fs.fsType = .fat12 → x ≠ c) → e' x = e x) → E e') :
    Returns (removeLoop d clst) v fun r v' =>
      v.Alters d v' ∧
        ((R r (v'.entry d) ∧ (v.CountOk d → v'.CountOk d)) ∨
          (r = .frDiskErr ∧ ¬ d.Reliable ∧ E (v'.entry d))) := by
  unfold removeLoop
  rw [returns_bind, returns_getFs]
  refine Returns.iterate
    (J := fun c v₁ => v.Alters d v₁ ∧ v.fs.IsCluster c ∧ J c (v₁.entry d) ∧
      (v.CountOk d → v₁.CountOk d))
    (fun _ v₁ => v.fs.nFatent.toNat - 2 - v.fs.freeCount (v₁.entry d)) ?_ _ clst v
    ⟨.refl hc, hclst, hstart, id⟩ (by omega)
  rintro c v₁ ⟨halters, hcluster, hJ, hcount⟩
  have hg₁ := hg
  have hcluster₁ := hcluster
  rw [← halters.geometry] at hg₁ hcluster₁
  refine (removeBody_returns hg₁ halters.coherent hcluster₁).imp ?_
  rintro r v' ⟨halters', ⟨nxt, rfl, rfl, hnxt, hv', hcount'⟩ | ⟨rfl, hge, hv', hcount'⟩ |
    ⟨rfl, h0, hv', hcount'⟩ | ⟨rfl, h1, hv', hcount'⟩ | ⟨rfl, hd, hv'⟩⟩
  · rw [halters.geometry] at hnxt
    refine ⟨⟨halters.trans halters', hnxt, ?_, fun h => hcount' (hcount h)⟩, ?_⟩
    · rw [hv']
      exact hnext c _ hJ hnxt
    · have hused : v₁.entry d c ≠ 0 := by
        intro h
        rw [h] at hnxt
        exact absurd hnxt.1 (by decide)
      have hsucc : v.fs.freeCount (v'.entry d) = v.fs.freeCount (v₁.entry d) + 1 := by
        refine freeCount_succ hcluster hused (by rw [hv', Function.update_self]) fun c' _ hne => ?_
        rw [hv', Function.update_of_ne hne]
      have hle := freeCount_le (g := v.fs.toFatGeometry) (v'.entry d)
      omega
  · rw [halters.geometry] at hge
    refine ⟨halters.trans halters', .inl ⟨?_, fun h => hcount' (hcount h)⟩⟩
    rw [hv']
    exact hlast c _ hJ hge
  · refine ⟨halters.trans halters', .inl ⟨?_, fun h => hcount' (hcount h)⟩⟩
    rw [hv']
    exact hfree c _ hJ h0
  · refine ⟨halters.trans halters', .inl ⟨?_, fun h => hcount' (hcount h)⟩⟩
    rw [hv']
    exact hbad c _ hJ h1
  · rw [halters.geometry] at hv'
    exact ⟨halters.trans halters', .inr ⟨rfl, hd, herr c _ _ hJ hv'⟩⟩

/-- On every FAT the loop of `remove_chain` ends and does nothing but give clusters back : every
entry is as before or free, and the number of free clusters stays right. When the drive fails,
one entry of FAT12 is excepted. -/
theorem removeLoop_returns (hg : v.fs.WellFormed) (hc : v.Coherent d)
    (hclst : v.fs.IsCluster clst) :
    Returns (removeLoop d clst) v fun r v' =>
      v.Alters d v' ∧
        ((r = .frOk ∧ v'.entry d clst = 0 ∧
            (∀ c, v'.entry d c = v.entry d c ∨ v'.entry d c = 0) ∧ (v.CountOk d → v'.CountOk d)) ∨
          (r = .frIntErr ∧ (∃ c, v.entry d c = 1) ∧
            (∀ c, v'.entry d c = v.entry d c ∨ v'.entry d c = 0) ∧ (v.CountOk d → v'.CountOk d)) ∨
          (r = .frDiskErr ∧ ¬ d.Reliable ∧ ∃ b, ∀ c, (v.fs.fsType = .fat12 → c ≠ b) →
            v'.entry d c = v.entry d c ∨ v'.entry d c = 0)) := by
  refine (removeLoop_rule hg hc hclst
    (J := fun c e => (c = clst ∨ e clst = 0) ∧ ∀ c, e c = v.entry d c ∨ e c = 0)
    (R := fun r e => (r = .frOk ∧ e clst = 0 ∧ ∀ c, e c = v.entry d c ∨ e c = 0) ∨
      (r = .frIntErr ∧ (∃ c, v.entry d c = 1) ∧ ∀ c, e c = v.entry d c ∨ e c = 0))
    ⟨.inl rfl, fun _ => .inl rfl⟩ ?_ ?_ ?_ ?_
    (E := fun e => ∃ b, ∀ c, (v.fs.fsType = .fat12 → c ≠ b) → e c = v.entry d c ∨ e c = 0)
    ?_).imp ?_
  · rintro c e ⟨hfirst, hall⟩ -
    refine ⟨.inr ?_, fun c' => ?_⟩ <;> rw [Function.update_apply] <;> split_ifs with heq
    · rfl
    · exact hfirst.resolve_left fun h => heq h.symm
    · exact .inr rfl
    · exact hall c'
  · rintro c e ⟨hfirst, hall⟩ -
    refine .inl ⟨rfl, ?_, fun c' => ?_⟩ <;> rw [Function.update_apply] <;> split_ifs with heq
    · rfl
    · exact hfirst.resolve_left fun h => heq h.symm
    · exact .inr rfl
    · exact hall c'
  · rintro c e ⟨hfirst, hall⟩ h0
    exact .inl ⟨rfl, hfirst.elim (fun h => h ▸ h0) id, hall⟩
  · rintro c e ⟨-, hall⟩ h1
    refine .inr ⟨rfl, ⟨c, (hall c).elim (fun h => h.symm.trans h1) fun h => ?_⟩, hall⟩
    exact absurd (h.symm.trans h1) (by decide)
  · -- the entry at which the drive failed
    rintro b e e' ⟨-, hall⟩ he'
    exact ⟨b, fun c hc => by rw [he' c hc]; exact hall c⟩
  · rintro r v' ⟨halters, ⟨⟨rfl, h0, hall⟩ | ⟨rfl, h1, hall⟩, hcount⟩ | ⟨rfl, hd, hall⟩⟩
    · exact ⟨halters, .inl ⟨rfl, h0, hall, hcount⟩⟩
    · exact ⟨halters, .inr (.inl ⟨rfl, h1, hall, hcount⟩)⟩
    · exact ⟨halters, .inr (.inr ⟨rfl, hd, hall⟩)⟩

theorem removeLoop_returns_sample :
    (exec (removeLoop ramDisk 2) sampleVolume).1 = some .frOk ∧
      Returns (removeLoop ramDisk 2) sampleVolume fun r v' =>
        r = .frOk → v'.entry ramDisk 2 = 0 := by
  refine ⟨by decide +kernel, ?_⟩
  refine (removeLoop_returns sampleGeometry_wellFormed sampleVolume_coherent (by decide)).imp ?_
  rintro r v' ⟨-, ⟨-, h0, -⟩ | ⟨rfl, -⟩ | ⟨rfl, -⟩⟩ hok
  · exact h0
  · exact absurd hok (by decide)
  · exact absurd hok (by decide)

theorem link_eq_free {e : UInt32} : v.fs.linkOf e = .free ↔ e = 0 := by
  unfold linkOf
  split_ifs with h0 h <;> simp [h0]

theorem link_eq_last (hg : v.fs.WellFormed) {e : UInt32} :
    v.fs.linkOf e = .last ↔ v.fs.nFatent ≤ e := by
  unfold linkOf
  split_ifs with h0 h
  · subst h0
    have hmin := hg.minEntries
    simp only [false_iff, UInt32.le_iff_toNat_le, UInt32.toNat_zero]
    omega
  · simp [h]
  · simp [h]

theorem link_eq_next {e b : UInt32} (h : v.fs.linkOf e = .next b) : e = b ∧ b < v.fs.nFatent := by
  unfold linkOf at h
  split_ifs at h with h0 hlt
  obtain rfl : e = b := by simpa using h
  exact ⟨rfl, UInt32.not_le.1 hlt⟩

/-- Giving back a chain : exactly its clusters are free afterwards. If the drive fails, no entry
of another cluster has changed. -/
theorem removeLoop_chain (hg : v.fs.WellFormed) (hc : v.Coherent d) {l : List UInt32}
    (hmem : ∀ c ∈ clst :: l, v.fs.IsCluster c) (hleads : Link.Leads (v.link d) (clst :: l)) :
    Returns (removeLoop d clst) v fun r v' =>
      v.Alters d v' ∧
        ((r = .frOk ∧ (∀ c, v'.entry d c = if c ∈ clst :: l then 0 else v.entry d c) ∧
            (v.CountOk d → v'.CountOk d)) ∨
          (r = .frDiskErr ∧ ¬ d.Reliable ∧ ∀ c, c ∉ clst :: l → v'.entry d c = v.entry d c)) := by
  have hnodup := hleads.nodup
  -- the clusters before `c` have been given back
  let J (c : UInt32) (e : UInt32 → UInt32) : Prop :=
    ∃ l₁ l₂, clst :: l = l₁ ++ c :: l₂ ∧ ∀ x, e x = if x ∈ l₁ then 0 else v.entry d x
  have hJ : ∀ {c e}, J c e → ∃ l₁ l₂, clst :: l = l₁ ++ c :: l₂ ∧ e c = v.entry d c ∧
      Link.Leads (v.link d) (c :: l₂) ∧
      ∀ x, Function.update e c 0 x = if x ∈ l₁ ++ [c] then 0 else v.entry d x := by
    rintro c e ⟨l₁, l₂, heq, he⟩
    rw [heq] at hleads hnodup
    have hout : c ∉ l₁ := fun hin => (List.nodup_append.1 hnodup).2.2 c hin c (by simp) rfl
    refine ⟨l₁, l₂, heq, by rw [he c, if_neg hout], hleads.of_append, fun x => ?_⟩
    rw [Function.update_apply, he x]
    by_cases hx : x = c <;> simp [hx]
  refine (removeLoop_rule hg hc (hmem clst (by simp)) (J := J)
    (R := fun r e => r = .frOk ∧ ∀ c, e c = if c ∈ clst :: l then 0 else v.entry d c)
    ⟨[], l, rfl, fun x => by simp⟩ ?_ ?_ ?_ ?_
    (E := fun e => ∀ c, c ∉ clst :: l → e c = v.entry d c) ?_).imp ?_
  · intro c e h hnext
    obtain ⟨l₁, l₂, heq, hec, hrest, hupdate⟩ := hJ h
    cases l₂ with
    | nil =>
      rw [Link.leads_singleton, Volume.link, link_eq_last hg, ← hec] at hrest
      exact absurd hnext.2 (UInt32.not_lt.2 hrest)
    | cons b l₂ =>
      obtain ⟨hb, -⟩ := link_eq_next hrest.1
      rw [← hec] at hb
      exact ⟨l₁ ++ [c], l₂, by simp [heq, hb], hupdate⟩
  · intro c e h hge
    obtain ⟨l₁, l₂, heq, hec, hrest, hupdate⟩ := hJ h
    cases l₂ with
    | nil => exact ⟨rfl, by rw [heq]; exact hupdate⟩
    | cons b l₂ =>
      obtain ⟨hb, hlt⟩ := link_eq_next hrest.1
      rw [hec, hb] at hge
      exact absurd hlt (UInt32.not_lt.2 hge)
  · intro c e h h0
    obtain ⟨l₁, l₂, heq, hec, hrest, -⟩ := hJ h
    exact absurd (link_eq_free.2 (hec.symm.trans h0)) (hrest.ne_free (by simp))
  · intro c e h h1
    obtain ⟨l₁, l₂, heq, hec, hrest, -⟩ := hJ h
    cases l₂ with
    | nil =>
      rw [Link.leads_singleton, Volume.link, link_eq_last hg, ← hec, h1,
        UInt32.le_iff_toNat_le] at hrest
      have hmin := hg.minEntries
      simp only [UInt32.toNat_one] at hrest
      omega
    | cons b l₂ =>
      obtain ⟨hb, -⟩ := link_eq_next hrest.1
      have hcluster := hmem b (by simp [heq])
      rw [← hb, ← hec, h1] at hcluster
      exact absurd hcluster.1 (by decide)
  · rintro c e e' ⟨l₁, l₂, heq, he⟩ he' x hx
    rw [heq] at hx
    simp only [List.mem_append, List.mem_cons, not_or] at hx
    rw [he' x fun _ => hx.2.1, he x, if_neg hx.1]
  · rintro r v' ⟨halters, ⟨⟨rfl, hall⟩, hcount⟩ | ⟨rfl, hd⟩⟩
    · exact ⟨halters, .inl ⟨rfl, hall, hcount⟩⟩
    · exact ⟨halters, .inr ⟨rfl, hd⟩⟩

end Remove

end Gd32Firmware
