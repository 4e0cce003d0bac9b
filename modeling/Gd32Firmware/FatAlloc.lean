import Gd32Firmware.FatChain

/-!
# Taking a free cluster

The search of `create_chain` for a free cluster goes once around the FAT : it ends with a free
cluster, or there is none (`searchFree_returns`). `createChain_returns` says what the whole
function does with a FAT of any entries.
-/

namespace Gd32Firmware

open Program FatGeometry

variable {σ : Type}

/-! ## Looking for a free cluster -/

section Search

variable {d : Storage σ} {v : Volume σ} {clst scl ncl : UInt32}

/-- What a search from a volume ends with : a free cluster, or the reason why there is none. -/
def Volume.Found (d : Storage σ) (v : Volume σ) : Except UInt32 UInt32 → Prop
  | .ok ncl => v.fs.IsCluster ncl ∧ v.entry d ncl = 0
  | .error val =>
    (val = 0 ∧ ∀ c, v.fs.IsCluster c → v.entry d c ≠ 0) ∨
      (val = 1 ∧ ∃ c, v.fs.IsCluster c ∧ v.entry d c = 1) ∨ (val = diskError ∧ ¬ d.Reliable)

theorem toNat_succ_cluster (hg : v.fs.WellFormed) (hncl : ncl < v.fs.nFatent) :
    (ncl + 1).toNat = ncl.toNat + 1 := by
  have hlt := hg.nFatent_lt
  rw [UInt32.lt_iff_toNat_lt] at hncl
  rw [UInt32.toNat_add, UInt32.toNat_one]
  omega

/-- The clusters that the search has passed when it is at `ncl` : from `scl` up to it, or up to
the end and from the beginning up to it. -/
def Passed (n scl ncl c : ℕ) : Prop :=
  if scl ≤ ncl then scl < c ∧ c ≤ ncl else (scl < c ∧ c < n) ∨ c ≤ ncl

/-- The search for a free cluster goes once around the FAT. -/
theorem searchFree_returns (hg : v.fs.WellFormed) (hc : v.Coherent d) (hscl : 1 ≤ scl.toNat)
    (hlt : scl < v.fs.nFatent) :
    Returns (searchFree d scl) v fun r v' => v.Reads d v' ∧ v.Found d r := by
  unfold searchFree
  rw [returns_bind, returns_getFs]
  have hmin := hg.minEntries
  have hltn := UInt32.lt_iff_toNat_lt.1 hlt
  refine Returns.iterate
    (J := fun ncl v₁ => v.Reads d v₁ ∧ 1 ≤ ncl.toNat ∧ ncl < v.fs.nFatent ∧
      ∀ c, v.fs.IsCluster c → Passed v.fs.nFatent.toNat scl.toNat ncl.toNat c.toNat →
        v.entry d c ≠ 0)
    (fun ncl _ => if scl ≤ ncl then 2 * v.fs.nFatent.toNat - ncl.toNat
      else scl.toNat - ncl.toNat) ?_ _ scl v ⟨.refl hc, hscl, hlt, fun c _ h => ?_⟩ ?_
  rotate_left
  · rw [Passed, if_pos le_rfl] at h
    omega
  · rw [if_pos (UInt32.le_refl scl)]
    omega
  rintro ncl v₁ ⟨hsame, hncl, hnclt, hpassed⟩
  have hsucc := toNat_succ_cluster hg hnclt
  have hnclt' := UInt32.lt_iff_toNat_lt.1 hnclt
  have hwrap : v.fs.nFatent ≤ ncl + 1 ↔ v.fs.nFatent.toNat = ncl.toNat + 1 := by
    rw [UInt32.le_iff_toNat_le, hsucc]
    omega
  unfold searchBody
  simp only [returns_bind, returns_getFs, hsame.geometry]
  set new := if v.fs.nFatent ≤ ncl + 1 then 2 else ncl + 1 with hnew
  have hnew' : new.toNat = if v.fs.nFatent.toNat = ncl.toNat + 1 then 2 else ncl.toNat + 1 := by
    rw [hnew]
    simp only [hwrap]
    split_ifs
    · rfl
    · exact hsucc
  have hcluster : v.fs.IsCluster new := by
    rw [isCluster_toNat, hnew']
    split_ifs <;> omega
  -- the end of the search : every cluster has been passed
  have hall : ∀ c, v.fs.IsCluster c → (scl.toNat < 2 ∧ v.fs.nFatent.toNat = ncl.toNat + 1) ∨
      (new = scl ∧ v.entry d new ≠ 0) → v.entry d c ≠ 0 := by
    intro c hcl hend
    have hcl' := isCluster_toNat.1 hcl
    obtain ⟨hlow, hend⟩ | ⟨rfl, hused⟩ := hend
    · refine hpassed c hcl ?_
      rw [Passed, if_pos (by omega)]
      omega
    · by_cases heq : c = new
      · rwa [heq]
      · have hne : c.toNat ≠ new.toNat := fun h => heq (UInt32.toNat_inj.1 h)
        refine hpassed c hcl ?_
        rw [Passed]
        split_ifs at hnew' ⊢ <;> omega
  refine Returns.ite (fun h => ?_) fun hgo => ?_
  · refine ⟨hsame, .inl ⟨rfl, fun c hcl => hall c hcl (.inl ⟨?_, hwrap.1 h.1⟩)⟩⟩
    have hlow := UInt32.lt_iff_toNat_lt.1 h.2
    rwa [hnew', if_pos (hwrap.1 h.1)] at hlow
  have hg₁ := hg
  have hcluster₁ := hcluster
  rw [← hsame.geometry] at hg₁ hcluster₁
  refine Returns.bind (getFat_returns hg₁ hsame.coherent hcluster₁) ?_
  rintro cs v₂ ⟨hsame', hcs⟩
  rw [hsame.entry_eq] at hcs
  have hv₂ := hsame.trans hsame'
  refine Returns.ite (fun h0 => ?_) fun h0 => Returns.ite (fun hbad => ?_) fun hgood =>
    Returns.ite (fun hend => ?_) fun hgoes => ?_
  · obtain rfl | ⟨rfl, -⟩ := hcs
    · exact ⟨hv₂, hcluster, h0⟩
    · exact absurd h0 (by decide)
  · obtain rfl | ⟨rfl, hd⟩ := hcs
    · exact ⟨hv₂, .inr (.inl ⟨hbad.resolve_right entry_ne_diskError, new, hcluster,
        hbad.resolve_right entry_ne_diskError⟩)⟩
    · exact ⟨hv₂, .inr (.inr ⟨rfl, hd⟩)⟩
  · obtain rfl | ⟨rfl, -⟩ := hcs
    · exact ⟨hv₂, .inl ⟨rfl, fun c hcl => hall c hcl (.inr ⟨hend, h0⟩)⟩⟩
    · exact absurd (.inr rfl) hgood
  · obtain rfl | ⟨rfl, -⟩ := hcs
    swap
    · exact absurd (.inr rfl) hgood
    have hcl' := isCluster_toNat.1 hcluster
    have hne : new.toNat ≠ scl.toNat := fun h => hgoes (UInt32.toNat_inj.1 h)
    have hlow : v.fs.nFatent.toNat = ncl.toNat + 1 → 2 ≤ scl.toNat := by
      intro heq
      rw [hnew', if_pos heq] at hne
      by_contra hlt
      refine hgo ⟨hwrap.2 heq, ?_⟩
      rw [UInt32.lt_iff_toNat_lt, hnew', if_pos heq]
      omega
    refine ⟨⟨hv₂, by omega, hcluster.2, fun c hcl hpass => ?_⟩, ?_⟩
    · by_cases heq : c = new
      · rwa [heq]
      · have hcne : c.toNat ≠ new.toNat := fun h => heq (UInt32.toNat_inj.1 h)
        have hcn := isCluster_toNat.1 hcl
        refine hpassed c hcl ?_
        rw [Passed] at hpass ⊢
        split_ifs at hnew' hpass ⊢ <;> omega
    · simp only [UInt32.le_iff_toNat_le]
      split_ifs at hnew' ⊢ <;> omega

/-- What `create_chain` looks for. -/
theorem findFree_returns (hg : v.fs.WellFormed) (hc : v.Coherent d) (hscl : 1 ≤ scl.toNat)
    (hlt : scl < v.fs.nFatent) :
    Returns (findFree d clst scl) v fun r v' => v.Reads d v' ∧ v.Found d r := by
  unfold findFree
  rw [returns_bind, returns_getFs]
  refine Returns.ite (fun _ => ?_) fun _ => searchFree_returns hg hc hscl hlt
  set ncl := if v.fs.nFatent ≤ scl + 1 then 2 else scl + 1 with hncl
  have hcluster : v.fs.IsCluster ncl := by
    have hsucc := toNat_succ_cluster hg hlt
    have hmin := hg.minEntries
    have hltn := UInt32.lt_iff_toNat_lt.1 hlt
    rw [isCluster_toNat, hncl]
    split_ifs with h <;> rw [UInt32.le_iff_toNat_le, hsucc] at h
    · exact ⟨le_rfl, by simpa using by omega⟩
    · omega
  refine Returns.bind (getFat_returns hg hc hcluster) ?_
  rintro cs v₁ ⟨hsame, hcs⟩
  refine Returns.ite (fun hbad => ?_) fun hgood => Returns.ite (fun _ => ?_) fun hfree => ?_
  · obtain rfl | ⟨rfl, hd⟩ := hcs
    · have h1 := hbad.resolve_right entry_ne_diskError
      exact ⟨hsame, .inr (.inl ⟨h1, ncl, hcluster, h1⟩)⟩
    · exact ⟨hsame, .inr (.inr ⟨rfl, hd⟩)⟩
  · have hg₁ := hg
    rw [← hsame.geometry] at hg₁
    refine (searchFree_returns hg₁ hsame.coherent ?_ ?_).imp ?_
    · split_ifs with h
      · have := UInt32.le_iff_toNat_le.1 h.1
        simp only [UInt32.reduceToNat] at this
        omega
      · exact hscl
    · rw [hsame.geometry]
      split_ifs with h
      · exact h.2
      · exact hlt
    · rintro r v₂ ⟨hsame', hfound⟩
      refine ⟨hsame.trans hsame', ?_⟩
      cases r <;> simpa only [Volume.Found, hsame.geometry, hsame.entry_eq] using hfound
  · obtain rfl | ⟨rfl, -⟩ := hcs
    · exact ⟨hsame, hcluster, by simpa using hfree⟩
    · exact absurd (.inr rfl) hgood

end Search

/-! ## Taking a cluster -/

section Take

variable {d : Storage σ} {v : Volume σ} {clst scl ncl : UInt32}

/-- An entry keeps all of the number of a cluster. -/
theorem and_mask (hg : v.fs.WellFormed) (hncl : v.fs.IsCluster ncl) :
    ncl &&& v.fs.fsType.mask = ncl := by
  have hlt := (isCluster_toNat.1 hncl).2
  have hmax := hg.maxEntries
  apply UInt32.toNat_inj.1
  rw [UInt32.toNat_and]
  cases ht : v.fs.fsType with
  | blank => exact absurd ht hg.mounted
  | fat12 =>
    rw [ht, FsType.maxEntries] at hmax
    exact (Nat.and_two_pow_sub_one_eq_mod _ 12).trans (Nat.mod_eq_of_lt (by omega))
  | fat16 =>
    rw [ht, FsType.maxEntries] at hmax
    exact (Nat.and_two_pow_sub_one_eq_mod _ 16).trans (Nat.mod_eq_of_lt (by omega))
  | fat32 =>
    rw [ht, FsType.maxEntries] at hmax
    exact (Nat.and_two_pow_sub_one_eq_mod _ 28).trans (Nat.mod_eq_of_lt (by omega))

/-- The mark of the last cluster of a chain is no cluster, in all types of FAT. -/
theorem le_mask (hg : v.fs.WellFormed) : v.fs.nFatent ≤ 0xFFFFFFFF &&& v.fs.fsType.mask := by
  have hmax := hg.maxEntries
  rw [UInt32.le_iff_toNat_le]
  cases ht : v.fs.fsType with
  | blank => exact absurd ht hg.mounted
  | fat12 =>
    rw [ht] at hmax
    exact hmax.trans (by decide)
  | fat16 =>
    rw [ht] at hmax
    exact hmax.trans (by decide)
  | fat32 =>
    rw [ht] at hmax
    exact hmax.trans (by decide)

/-- The entries when `ncl` has been put behind `clst`, or begins a chain (`clst = 0`). -/
def FatGeometry.linked (g : FatGeometry) (e : UInt32 → UInt32) (clst ncl c : UInt32) : UInt32 :=
  if clst ≠ 0 ∧ c = clst then ncl
  else if c = ncl then 0xFFFFFFFF &&& g.fsType.mask else e c

theorem linkNew_returns (hg : v.fs.WellFormed) (hc : v.Coherent d) (hncl : v.fs.IsCluster ncl)
    (hclst : clst = 0 ∨ v.fs.IsCluster clst) :
    Returns (linkNew d clst ncl) v fun r v' =>
      v.Alters d v' ∧ v'.fs.alloc = v.fs.alloc ∧
        ((r = .frOk ∧ v'.entry d = v.fs.linked (v.entry d) clst ncl) ∨
          (r = .frDiskErr ∧ ¬ d.Reliable ∧
            ∀ c, c ≠ ncl → c ≠ clst → v'.entry d c = v.entry d c)) := by
  unfold linkNew
  refine Returns.bind (putFat_entry hg hc hncl _) ?_
  rintro r v₁ ⟨halters, halloc, hput⟩
  refine Returns.ite (fun hgo => ?_) fun hstop => ?_
  · obtain ⟨-, hentry⟩ | ⟨rfl, -⟩ := hput
    swap
    · exact absurd hgo.1 (by decide)
    have hclst₁ := hclst.resolve_left hgo.2
    have hg₁ := hg
    rw [← halters.geometry] at hg₁ hclst₁
    refine (putFat_entry hg₁ halters.coherent hclst₁ ncl).imp ?_
    rintro r v₂ ⟨halters', halloc', hput'⟩
    refine ⟨halters.trans halters', halloc'.trans halloc,
      hput'.imp (fun h => ⟨h.1, ?_⟩) fun h => ⟨h.1, h.2.1, fun c hne hne' => ?_⟩⟩
    swap
    · rw [h.2.2 c fun _ => hne', hentry c, if_neg hne]
    funext c
    rw [h.2 c, hentry c, halters.geometry, and_mask hg hncl]
    by_cases hcc : c = clst <;> simp [linked, hcc, hgo.2]
  · refine ⟨halters, halloc,
      hput.imp (fun h => ⟨h.1, ?_⟩) fun h => ⟨h.1, h.2.1, fun c hne _ => h.2.2 c fun _ => hne⟩⟩
    obtain rfl : clst = 0 := by_contra fun hne => hstop ⟨h.1, hne⟩
    funext c
    rw [h.2 c]
    simp [linked]

/-- What is left if the drive fails while a cluster is linked behind `clst` : the entries of
other clusters that were not free are as before. -/
def Volume.Spoils (d : Storage σ) (v v' : Volume σ) (clst : UInt32) : Prop :=
  ∀ c, v.entry d c ≠ 0 → c ≠ clst → v'.entry d c = v.entry d c

/-- A cluster has been taken : it was free, and is linked behind `clst`. -/
structure Volume.Took (d : Storage σ) (v v' : Volume σ) (clst ncl : UInt32) : Prop where
  alters : v.Alters d v'
  cluster : v.fs.IsCluster ncl
  free : v.entry d ncl = 0
  entry : v'.entry d = v.fs.linked (v.entry d) clst ncl
  count : v.CountOk d → v'.CountOk d

theorem Volume.Reads.then_took {v₁ v' : Volume σ} (h : v.Reads d v₁) (h' : v₁.Took d v' clst ncl) :
    v.Took d v' clst ncl where
  alters := h.alters.trans h'.alters
  cluster := by rw [← h.geometry]; exact h'.cluster
  free := by rw [← h.entry_eq]; exact h'.free
  entry := by rw [h'.entry, h.geometry, h.entry_eq]
  count hv := by
    refine h'.count ?_
    rw [Volume.CountOk, h.entry_eq, h.fs]
    exact hv

/-- Counting the cluster that was taken. -/
theorem countTaken_returns (hc : v.Coherent d) (ncl : UInt32) :
    Returns (countTaken ncl) v fun _ v' =>
      v.Alters d v' ∧ v'.entry d = v.entry d ∧
        ∀ n, (v.fs.freeClst ≤ v.fs.nFatent - 2 → v.fs.freeClst.toNat = n + 1) →
          (v'.fs.freeClst ≤ v.fs.nFatent - 2 → v'.fs.freeClst.toNat = n) := by
  have hsame := setFs_same (v := v) (d := d)
    (f := fun fs => if 0 < fs.freeClst ∧ fs.freeClst ≤ fs.nFatent - 2 then
      { fs with lastClst := ncl, freeClst := fs.freeClst - 1, fsiFlag := fs.fsiFlag ||| 1 }
      else { fs with lastClst := ncl }) hc
    (by split_ifs <;> rfl) (by split_ifs <;> exact ⟨rfl, rfl, rfl⟩)
  refine ⟨hsame.1, hsame.2, fun n hn hle => ?_⟩
  simp only [Volume.setFs] at hle ⊢
  split_ifs at hle ⊢ with hcounts
  · have heq := hn hcounts.2
    rw [UInt32.toNat_sub, UInt32.toNat_one]
    have := v.fs.freeClst.toNat_lt
    omega
  · have heq := hn hle
    refine absurd ⟨?_, hle⟩ hcounts
    rw [UInt32.lt_iff_toNat_lt, UInt32.toNat_zero]
    omega

/-- What taking a cluster does to the number of free ones. -/
theorem freeCount_linked (hg : v.fs.WellFormed) (hncl : v.fs.IsCluster ncl)
    (hfree : v.entry d ncl = 0) (hclst : clst = 0 ∨ v.entry d clst ≠ 0) :
    v.fs.freeCount (v.entry d) = v.fs.freeCount (v.fs.linked (v.entry d) clst ncl) + 1 := by
  have hne0 : ∀ {c}, v.fs.IsCluster c → c ≠ 0 := by
    rintro c hc rfl
    exact absurd hc.1 (by decide)
  have hmask : (0xFFFFFFFF &&& v.fs.fsType.mask : UInt32) ≠ 0 := by
    intro h
    have hle := le_mask hg
    have hmin := hg.minEntries
    rw [h, UInt32.le_iff_toNat_le, UInt32.toNat_zero] at hle
    omega
  refine freeCount_succ hncl ?_ hfree fun c hcl hne => ?_
  · rw [linked, if_pos (rfl : ncl = ncl)]
    split_ifs
    · exact hne0 hncl
    · exact hmask
  · unfold linked
    by_cases hcc : clst ≠ 0 ∧ c = clst
    · rw [if_pos hcc, hcc.2]
      exact iff_of_false (hclst.resolve_left hcc.1) (hne0 hncl)
    · rw [if_neg hcc, if_neg hne]

theorem takeCluster_returns (hg : v.fs.WellFormed) (hc : v.Coherent d) (hscl : 1 ≤ scl.toNat)
    (hlt : scl < v.fs.nFatent)
    (hclst : clst = 0 ∨ (v.fs.IsCluster clst ∧ v.entry d clst ≠ 0)) :
    Returns (takeCluster d clst scl) v fun val v' =>
      v.Alters d v' ∧
        ((val = 0 ∧ v'.entry d = v.entry d ∧ v'.fs.alloc = v.fs.alloc ∧
            (v.fs.freeClst = 0 ∨ ∀ c, v.fs.IsCluster c → v.entry d c ≠ 0)) ∨
          (val = 1 ∧ v'.entry d = v.entry d ∧ v'.fs.alloc = v.fs.alloc ∧
            ∃ c, v.fs.IsCluster c ∧ v.entry d c = 1) ∨
          v.Took d v' clst val ∨
          (val = diskError ∧ ¬ d.Reliable ∧ v.Spoils d v' clst)) := by
  unfold takeCluster
  rw [returns_bind, returns_getFs]
  refine Returns.ite (fun h0 => ⟨.refl hc, .inl ⟨rfl, rfl, rfl, .inl h0⟩⟩) fun _ => ?_
  refine Returns.bind (findFree_returns hg hc hscl hlt) ?_
  rintro (val | ncl) v₁ ⟨hsame, hfound⟩
  · refine ⟨hsame.alters, ?_⟩
    obtain ⟨rfl, hfull⟩ | hbad | hd := hfound
    · exact .inl ⟨rfl, hsame.entry_eq, hsame.alloc, .inr hfull⟩
    · exact .inr (.inl ⟨hbad.1, hsame.entry_eq, hsame.alloc, hbad.2⟩)
    · exact .inr (.inr (.inr ⟨hd.1, hd.2, fun c _ _ => by rw [hsame.entry_eq]⟩))
  obtain ⟨hncl, hfree⟩ := hfound
  have hg₁ := hg
  have hncl₁ := hncl
  have hclst₁ := hclst
  rw [← hsame.geometry] at hg₁ hncl₁ hclst₁
  refine Returns.bind (linkNew_returns hg₁ hsame.coherent hncl₁ (hclst₁.imp_right And.left)) ?_
  rintro res v₂ ⟨halters, halloc, ⟨rfl, hentry⟩ | ⟨rfl, hd, hother⟩⟩
  swap
  · refine ⟨hsame.alters.trans halters, .inr (.inr (.inr ⟨rfl, hd, fun c hused hne => ?_⟩))⟩
    rw [hother c (fun h => hused (by rw [h, hfree])) hne, hsame.entry_eq]
  have hv₂ := hsame.alters.trans halters
  rw [hsame.entry_eq, hsame.geometry] at hentry
  rw [if_pos rfl]
  refine Returns.bind (countTaken_returns halters.coherent ncl) ?_
  rintro - v₃ ⟨halters', hentry', hcount⟩
  have hv₃ := hv₂.trans halters'
  refine ⟨hv₃, .inr (.inr (.inl ⟨hv₃, hncl, hfree, hentry'.trans hentry, fun h => ?_⟩))⟩
  have hsucc := freeCount_linked hg hncl hfree (hclst.imp_right And.right)
  have hfreeClst : v₂.fs.freeClst = v.fs.freeClst :=
    congrArg (fun a => a.2.1) (halloc.trans hsame.alloc)
  rw [Volume.CountOk, hsucc] at h
  rw [hv₂.geometry, hfreeClst] at hcount
  rw [Volume.CountOk, hv₃.geometry, hentry', hentry]
  exact hcount _ h

/-- What `create_chain` does with a cluster of a FAT of any entries, or with 0 : the cluster is
followed by another one already, or it ends its chain and a free cluster is taken for it, unless
there is none. The value 1 says that the cluster was free or that the FAT has an entry that no
chain has. -/
theorem createChain_returns (hg : v.fs.WellFormed) (hc : v.Coherent d)
    (hclst : clst = 0 ∨ v.fs.IsCluster clst) :
    Returns (createChain d clst) v fun val v' =>
      v.Alters d v' ∧
        ((clst ≠ 0 ∧ v.entry d clst < 2 ∧ val = 1 ∧ v.Reads d v') ∨
          (clst ≠ 0 ∧ v.fs.IsCluster val ∧ val = v.entry d clst ∧ v.Reads d v') ∨
          ((clst ≠ 0 → v.fs.nFatent ≤ v.entry d clst) ∧
            ((val = 0 ∧ v'.entry d = v.entry d ∧ v'.fs.alloc = v.fs.alloc ∧
                (v.fs.freeClst = 0 ∨ ∀ c, v.fs.IsCluster c → v.entry d c ≠ 0)) ∨
              (val = 1 ∧ v'.entry d = v.entry d ∧ v'.fs.alloc = v.fs.alloc ∧
                ∃ c, v.fs.IsCluster c ∧ v.entry d c = 1) ∨
              v.Took d v' clst val)) ∨
          (val = diskError ∧ ¬ d.Reliable ∧ v.Spoils d v' clst)) := by
  have hmin := hg.minEntries
  unfold createChain
  rw [returns_bind, returns_getFs]
  refine Returns.ite (fun h0 => ?_) fun hne => ?_
  · refine (takeCluster_returns hg hc ?_ ?_ (.inl h0)).imp ?_
    · split_ifs with h
      · exact Nat.le_refl 1
      · have hne : v.fs.lastClst.toNat ≠ 0 := fun h0 => h (.inl (UInt32.toNat_inj.1 h0))
        omega
    · split_ifs with h
      · rw [UInt32.lt_iff_toNat_lt, UInt32.toNat_one]
        omega
      · exact UInt32.not_le.1 fun hle => h (.inr hle)
    · rintro val v' ⟨halters, hfull | ⟨rfl, hentry, halloc, hbad⟩ | htook | hd⟩
      · exact ⟨halters, .inr (.inr (.inl ⟨fun h => absurd h0 h, .inl hfull⟩))⟩
      · exact ⟨halters, .inr (.inr (.inl ⟨fun h => absurd h0 h,
          .inr (.inl ⟨rfl, hentry, halloc, hbad⟩)⟩))⟩
      · exact ⟨halters, .inr (.inr (.inl ⟨fun h => absurd h0 h, .inr (.inr htook)⟩))⟩
      · exact ⟨halters, .inr (.inr (.inr hd))⟩
  have hcluster := hclst.resolve_left hne
  refine Returns.bind (getFat_returns hg hc hcluster) ?_
  rintro cs v₁ ⟨hsame, hcs⟩
  refine Returns.ite (fun hlow => ?_) fun hlow => Returns.ite (fun herr => ?_) fun herr => ?_
  · obtain rfl | ⟨rfl, -⟩ := hcs
    · exact ⟨hsame.alters, .inl ⟨hne, hlow, rfl, hsame⟩⟩
    · exact absurd hlow (by decide)
  · obtain rfl | ⟨rfl, hd⟩ := hcs
    · exact absurd herr entry_ne_diskError
    · exact ⟨hsame.alters, .inr (.inr (.inr ⟨rfl, hd, fun c _ _ => by rw [hsame.entry_eq]⟩))⟩
  obtain rfl | ⟨rfl, -⟩ := hcs
  swap
  · exact absurd rfl herr
  refine Returns.ite (fun hnext => ?_) fun hend => ?_
  · exact ⟨hsame.alters,
      .inr (.inl ⟨hne, ⟨UInt32.not_lt.1 hlow, hnext⟩, rfl, hsame⟩)⟩
  have hlast := UInt32.not_lt.1 hend
  have hused : v.entry d clst ≠ 0 := by
    intro h
    rw [h] at hlow
    exact hlow (by decide)
  have hg₁ := hg
  have hcluster₁ := hcluster
  rw [← hsame.geometry] at hg₁ hcluster₁
  have hlow₁ := (isCluster_toNat.1 hcluster).1
  refine (takeCluster_returns hg₁ hsame.coherent (by omega) hcluster₁.2
    (.inr ⟨hcluster₁, by rwa [hsame.entry_eq]⟩)).imp ?_
  simp only [hsame.geometry, hsame.entry_eq, hsame.alloc]
  have hfree : v₁.fs.freeClst = v.fs.freeClst := congrArg (fun a => a.2.1) hsame.alloc
  rintro val v' ⟨halters, ⟨rfl, hentry, halloc, hfull⟩ | ⟨rfl, hentry, halloc, hbad⟩ | htook | hd⟩
  · rw [hfree] at hfull
    exact ⟨hsame.alters.trans halters,
      .inr (.inr (.inl ⟨fun _ => hlast, .inl ⟨rfl, hentry, halloc, hfull⟩⟩))⟩
  · exact ⟨hsame.alters.trans halters,
      .inr (.inr (.inl ⟨fun _ => hlast, .inr (.inl ⟨rfl, hentry, halloc, hbad⟩)⟩))⟩
  · exact ⟨hsame.alters.trans halters,
      .inr (.inr (.inl ⟨fun _ => hlast, .inr (.inr (hsame.then_took htook))⟩))⟩
  · refine ⟨hsame.alters.trans halters, .inr (.inr (.inr ⟨hd.1, hd.2.1, fun c hc' hne => ?_⟩))⟩
    rw [← hsame.entry_eq] at hc' ⊢
    exact hd.2.2 c hc' hne

end Take

end Gd32Firmware
