import Gd32Firmware.FatSync

/-!
# Moving the pointer and cutting the file

`f_lseek` and `f_truncate` of `libraries/fatfs/ff.c`. A seek begins at the cluster of the pointer
or at the first one and follows the chain; in write mode it makes the chain longer where it ends,
so that the file may grow, by bytes that are not specified.

`fLseek_returns` and `fTruncate_returns` say what becomes of the file : its bytes stay the same
as far as it reaches before and after, the clusters behind its end are given back by
`f_truncate`, and no other file is touched.
-/

namespace Gd32Firmware

open Program FatGeometry

variable {σ : Type} (d : Storage σ)

/-! ## Seeking -/

/-- Bytes of a cluster. -/
def bytesOfCluster (g : FatGeometry) : UInt32 :=
  g.csize.toUInt32 * 512

/-- The number of a cluster that has been looked up or taken is checked. -/
def checkClust (g : FatGeometry) (clst : UInt32) : Option FResult :=
  if clst = diskError then some .frDiskErr
  else if clst ≤ 1 ∨ g.nFatent ≤ clst then some .frIntErr
  else none

/-- Where `f_lseek` begins to follow the chain. The pointer is set to the beginning of a cluster;
the answer is what is left of the offset and the number of the cluster, 0 if there is none. -/
def seekStart (ofs : UInt32) : Program (Handle σ) (Except FResult (UInt32 × UInt32)) := do
  let fs ← onVol getFs
  let f ← getFil
  let bcs := bytesOfCluster fs.toFatGeometry
  if 0 < f.fptr ∧ (f.fptr - 1) / bcs ≤ (ofs - 1) / bcs then
    let fptr := (f.fptr - 1) &&& ~~~(bcs - 1)
    modifyFil fun f => { f with fptr := fptr }
    pure (.ok (ofs - fptr, f.clust))
  else if f.sclust = 0 then
    modifyFil fun f => { f with fptr := 0 }
    let clst ← onVol (createChain d 0)
    if clst = 1 then pure (.error .frIntErr)
    else if clst = diskError then pure (.error .frDiskErr)
    else
      modifyFil fun f => { f with sclust := clst, clust := clst }
      pure (.ok (ofs, clst))
  else
    modifyFil fun f => { f with fptr := 0, clust := f.sclust }
    pure (.ok (ofs, f.sclust))

/-- The next cluster of the chain, in write mode one that is taken where the chain ends. -/
def seekClust (clst : UInt32) : Program (Handle σ) UInt32 := do
  let f ← getFil
  if f.faWrite then onVol (createChain d clst) else onVol (getFat d clst)

/-- The loop that follows the chain, with what is left of the offset. If the disk is full it ends
at the end of the chain. -/
def seekBody : UInt32 × UInt32 →
    Program (Handle σ) ((UInt32 × UInt32) ⊕ Except FResult (UInt32 × UInt32))
  | (ofs, clst) => do
    let fs ← onVol getFs
    let bcs := bytesOfCluster fs.toFatGeometry
    if bcs < ofs then
      modifyFil fun f => { f with fptr := f.fptr + bcs }
      let f ← getFil
      let clst ← seekClust d clst
      if f.faWrite ∧ clst = 0 then pure (.inr (.ok (0, 0)))
      else
        match checkClust fs.toFatGeometry clst with
        | some res => pure (.inr (.error res))
        | none => do
          modifyFil fun f => { f with clust := clst }
          pure (.inl (ofs - bcs, clst))
    else pure (.inr (.ok (ofs, clst)))

/-- The rest of the offset is added to the pointer. The answer is the sector of the pointer, 0 on
a sector boundary. -/
def seekSect (ofs clst : UInt32) : Program (Handle σ) (Except FResult UInt32) := do
  let fs ← onVol getFs
  modifyFil fun f => { f with fptr := f.fptr + ofs }
  if ofs % 512 ≠ 0 then
    let nsect := clst2sect fs.toFatGeometry clst
    if nsect = 0 then pure (.error .frIntErr) else pure (.ok (nsect + ofs / 512))
  else pure (.ok 0)

/-- From the beginning of a cluster to the sector of the pointer. -/
def seekAlong (ofs clst : UInt32) : Program (Handle σ) (Except FResult UInt32) := do
  if clst = 0 then pure (.ok 0)
  else
    match ← iterate (seekBody d) (ofs.toNat + 1) (ofs, clst) with
    | .error res => pure (.error res)
    | .ok (ofs, clst) => seekSect ofs clst

/-- The part of `f_lseek` that moves the pointer. -/
def seekTo (ofs : UInt32) : Program (Handle σ) (Except FResult UInt32) := do
  if 0 < ofs then
    match ← seekStart d ofs with
    | .error res => pure (.error res)
    | .ok (ofs, clst) => seekAlong d ofs clst
  else
    modifyFil fun f => { f with fptr := 0 }
    pure (.ok 0)

/-- The sector of the pointer is read into the buffer, if it is another one. -/
def seekLoad (nsect : UInt32) : Program (Handle σ) FResult := do
  let f ← getFil
  if f.fptr % 512 ≠ 0 ∧ nsect ≠ f.sect then
    let res ← writeBack d
    if res = .frOk then
      let (status, data) ← onVol (diskReads d nsect 1)
      modifyFil fun f => { f with buf := data 0 }
      if status = .resOk then
        modifyFil fun f => { f with sect := nsect }
        pure .frOk
      else pure .frDiskErr
    else pure res
  else pure .frOk

/-- An error is recorded in the object. -/
def orAbort (res : FResult) : Program (Handle σ) FResult := do
  if res = .frOk then pure .frOk
  else
    abort res
    pure res

/-- `f_lseek`. -/
def fLseek (ofs : UInt32) : Program (Handle σ) FResult := do
  let res ← checkFile d
  if res ≠ .frOk then pure res
  else
    let f ← getFil
    let ofs := if f.objsize < ofs ∧ ¬ f.faWrite then f.objsize else ofs
    match ← seekTo d ofs with
    | .error res => orAbort res
    | .ok nsect => do
      modifyFil fun f =>
        if f.objsize < f.fptr then { f with objsize := f.fptr, faModified := true } else f
      let res ← seekLoad d nsect
      orAbort res

/-! ## Cutting -/

/-- The clusters behind the pointer are given back. -/
def truncChain : Program (Handle σ) FResult := do
  let f ← getFil
  if f.fptr = 0 then
    let res ← onVol (removeChain d f.sclust 0)
    modifyFil fun f => { f with sclust := 0 }
    pure res
  else
    let fs ← onVol getFs
    let ncl ← onVol (getFat d f.clust)
    if ncl = diskError then pure .frDiskErr
    else if ncl = 1 then pure .frIntErr
    else if ncl < fs.nFatent then onVol (removeChain d ncl f.clust)
    else pure .frOk

/-- `f_truncate`. -/
def fTruncate : Program (Handle σ) FResult := do
  let res ← checkFile d
  if res ≠ .frOk then pure res
  else
    let f ← getFil
    if f.faWrite then
      if f.fptr < f.objsize then
        let res ← truncChain d
        modifyFil fun f => { f with objsize := f.fptr, faModified := true }
        if res = .frOk then
          let res ← writeBack d
          orAbort res
        else orAbort res
      else pure .frOk
    else pure .frDenied

/-! ## Following the chain -/

section Numbers

variable {g : FatGeometry}

theorem toNat_bytesOfCluster (hg : g.WellFormed) :
    (bytesOfCluster g).toNat = 512 * g.csize.toNat := by
  have hle := hg.csize_le
  have hcsize : g.csize.toUInt32.toNat = g.csize.toNat := UInt16.toNat_toUInt32 _
  rw [bytesOfCluster, UInt32.toNat_mul, hcsize]
  simp only [UInt32.reduceToNat]
  omega

theorem toNat_sub_one {x : UInt32} (hx : 0 < x.toNat) : (x - 1).toNat = x.toNat - 1 := by
  have hle : (1 : UInt32) ≤ x := UInt32.le_iff_toNat_le.2 hx
  rw [UInt32.toNat_sub_of_le _ _ hle, UInt32.toNat_one]

/-- The bits of a number under a mask and those outside it. -/
theorem and_add_and_not (x m : UInt32) : (x &&& m) + (x &&& ~~~m) = x := by
  apply UInt32.toBitVec_inj.1
  rw [UInt32.toBitVec_add, UInt32.toBitVec_and, UInt32.toBitVec_and, UInt32.toBitVec_not,
    BitVec.add_eq_or_of_and_eq_zero]
  · ext i hi
    simp only [BitVec.getElem_or, BitVec.getElem_and, BitVec.getElem_not]
    cases x.toBitVec[i] <;> simp
  · ext i hi
    simp only [BitVec.getElem_and, BitVec.getElem_not, BitVec.getElem_zero]
    cases m.toBitVec[i] <;> simp

/-- The beginning of a cluster, as `f_lseek` computes it. -/
theorem toNat_clusterStart (hg : g.WellFormed) (x : UInt32) :
    (x &&& ~~~(bytesOfCluster g - 1)).toNat =
      x.toNat / (512 * g.csize.toNat) * (512 * g.csize.toNat) := by
  obtain ⟨k, hk, hcsize⟩ := hg.csize
  have hpow : 512 * g.csize.toNat = 2 ^ (k + 9) := by
    rw [hcsize, Nat.pow_add]
    omega
  have hmask : (bytesOfCluster g - 1).toNat = 2 ^ (k + 9) - 1 := by
    have hB := toNat_bytesOfCluster hg
    have hpos := hg.csize_pos
    rw [toNat_sub_one (by omega), hB, hpow]
  have hand : (x &&& (bytesOfCluster g - 1)).toNat = x.toNat % 2 ^ (k + 9) := by
    rw [UInt32.toNat_and, hmask, Nat.and_two_pow_sub_one_eq_mod]
  have hsum := congrArg UInt32.toNat (and_add_and_not x (bytesOfCluster g - 1))
  rw [UInt32.toNat_add, hand] at hsum
  have hx := x.toNat_lt
  have hle : (x &&& ~~~(bytesOfCluster g - 1)).toNat ≤ x.toNat := by
    rw [UInt32.toNat_and]
    exact Nat.and_le_left
  have hmod := Nat.mod_le x.toNat (2 ^ (k + 9))
  have hdiv := Nat.div_add_mod x.toNat (2 ^ (k + 9))
  rw [hpow, Nat.mul_comm]
  omega

end Numbers

section Steps

variable {d} {P : Set UInt32} {h h₁ h' : Handle σ} {l l₁ l' : List UInt32} {q ofs rest : ℕ}
  {clst : UInt32}

/-- The object with another pointer. -/
def Handle.withPtr (h : Handle σ) (fptr : UInt32) : Handle σ :=
  { h with fil := { h.fil with fptr := fptr } }

/-- What a seek leaves of the file while its pointer is on the way : the same bytes in a chain
that has become longer only if the offset `ofs` is behind its end. -/
structure Handle.Trails (d : Storage σ) (P : Set UInt32) (h h₁ : Handle σ) (l l₁ : List UInt32)
    (ofs : ℕ) : Prop where
  grows : h.Grows d P (h₁.withPtr h.fil.fptr) l l₁
  view : ∀ s, ¬ h.vol.fs.InFat s → h₁.vol.view d s = h.vol.view d s
  same : ofs ≤ 512 * h.vol.fs.sectors l → l₁ = l
  fil : h₁.fil = { h.fil with
    fptr := h₁.fil.fptr, clust := h₁.fil.clust, sclust := h₁.fil.sclust }

/-- The pointer is at the beginning of the cluster `q` of the file, so many bytes before the
offset. -/
structure Handle.Along (d : Storage σ) (P : Set UInt32) (h h₁ : Handle σ) (l l₁ : List UInt32)
    (ofs q rest : ℕ) : Prop extends Handle.Trails d P h h₁ l l₁ ofs where
  clust : l₁[q]? = some h₁.fil.clust
  ptr : h₁.fil.fptr.toNat = q * (512 * h.vol.fs.csize.toNat)
  sum : q * (512 * h.vol.fs.csize.toNat) + rest = ofs
  pos : 0 < rest

theorem Handle.Trails.refl (hf : h.Fits d P l) (hfil : h₁.fil = { h.fil with
    fptr := h₁.fil.fptr, clust := h₁.fil.clust }) (hvol : h₁.vol = h.vol) :
    h.Trails d P h₁ l l ofs := by
  have hrefl := (Handle.Grows.refl hf).set_clust h₁.fil.clust
  have heq : h₁.withPtr h.fil.fptr = { h with fil := { h.fil with clust := h₁.fil.clust } } := by
    unfold Handle.withPtr
    rw [hvol, hfil]
  refine ⟨?_, fun s _ => by rw [hvol], fun _ => rfl, by rw [hfil]⟩
  rw [heq]
  exact hrefl

theorem Handle.Trails.fs (ht : h.Trails d P h₁ l l₁ ofs) :
    h₁.vol.fs.toFatGeometry = h.vol.fs.toFatGeometry :=
  ht.grows.fs

theorem Handle.Trails.chained (ht : h.Trails d P h₁ l l₁ ofs) : h₁.vol.Chained d l₁ :=
  ht.grows.owned.toChained

/-- A further step makes the chain longer or leaves it. -/
theorem Handle.Trails.turns (ht : h.Trails d P h₁ l l₁ ofs) {v : Volume σ} {r : List UInt32}
    {s c p : UInt32} (hturns : h₁.vol.Turns d v l₁ (l₁ ++ r)) (hstart : s = (l₁ ++ r).headD 0)
    (hsame : ofs ≤ 512 * h.vol.fs.sectors l → r = []) :
    h.Trails d P { vol := v, fil := { h₁.fil with sclust := s, clust := c, fptr := p } } l
      (l₁ ++ r) ofs := by
  refine ⟨ht.grows.trans (ht.grows.toFits.turns hturns hstart), fun x hx => ?_, fun hle => ?_, ?_⟩
  · rw [hturns.view x (by rwa [ht.fs]), ht.view x hx]
  · rw [hsame hle, List.append_nil, ht.same hle]
  · rw [ht.fil]

theorem Handle.Trails.start (ht : h.Trails d P h₁ l l₁ ofs) : h₁.fil.sclust = l₁.headD 0 :=
  ht.grows.start

/-- What a call for a cluster on the way answers. -/
theorem seekClust_returns (hc : h.vol.Chained d l) (hq : l[q]? = some clst)
    (hread : h.fil.faWrite = false → q + 1 < l.length) :
    Returns (seekClust d clst) h fun val h' => h'.fil = h.fil ∧
      ((∃ r, h.vol.fs.IsCluster val ∧ h.vol.Turns d h'.vol l (l ++ r) ∧
          (l ++ r)[q + 1]? = some val ∧ (q + 1 < l.length → r = [])) ∨
        (val = 0 ∧ h.fil.faWrite = true ∧ q + 1 = l.length ∧ h.vol.Turns d h'.vol l l ∧
          h'.vol.NoRoom d) ∨
        (val = 1 ∧ h.vol.Turns d h'.vol l l ∧ h.vol.Broken d) ∨
        (val = diskError ∧ ¬ d.Reliable ∧ h.vol.Spares d h'.vol l)) := by
  unfold seekClust
  rw [returns_bind, returns_getFil]
  refine Returns.ite (fun hw => ?_) fun hw => ?_
  · rw [returns_onVol]
    refine (createChain_next hc hq).imp ?_
    rintro val v' (hnext | ⟨rfl, hlast, ht, hroom⟩ | hbroken | hd)
    · exact ⟨rfl, .inl hnext⟩
    · exact ⟨rfl, .inr (.inl ⟨rfl, hw, hlast, ht, hroom⟩)⟩
    · exact ⟨rfl, .inr (.inr (.inl hbroken))⟩
    · exact ⟨rfl, .inr (.inr (.inr hd))⟩
  · have hlt := hread (by simpa using hw)
    rw [returns_onVol]
    refine (getFat_next hc hq hlt).imp ?_
    rintro val v' ⟨hr, hnext | ⟨rfl, hd⟩⟩
    · refine ⟨rfl, .inl ⟨[], hc.mem val (List.mem_of_getElem? hnext), ?_, ?_, fun _ => rfl⟩⟩
      · rw [List.append_nil]
        exact hc.reads hr
      · rwa [List.append_nil]
    · exact ⟨rfl, .inr (.inr (.inr ⟨rfl, hd, (hc.reads hr).spares⟩))⟩

/-- What ends a seek : an entry of the FAT that no chain has, or the drive. -/
def Handle.SeekFails (d : Storage σ) (P : Set UInt32) (h h' : Handle σ) (res : FResult) : Prop :=
  h.vol.Keeps d P h'.vol ∧
    ((res = .frIntErr ∧ h.vol.Broken d) ∨ (res = .frDiskErr ∧ ¬ d.Reliable))

theorem checkClust_cluster {g : FatGeometry} (hg : g.WellFormed) (hc : g.IsCluster clst) :
    checkClust g clst = none := by
  have hone : ¬ clst ≤ 1 := fun hle => absurd (UInt32.le_trans hc.1 hle) (by decide)
  rw [checkClust, if_neg (cluster_ne_diskError hg hc),
    if_neg (not_or.2 ⟨hone, UInt32.not_le.2 hc.2⟩)]

/-- One step along the chain : to the next cluster, or it ends at the pointer, or where the disk
is full. -/
theorem seekBody_returns (ha : h.Along d P h₁ l l₁ ofs q rest) {x : UInt32}
    (hx : x.toNat = rest) (hofs : ofs < 2 ^ 32)
    (hread : h.fil.faWrite = false → ofs ≤ 512 * h.vol.fs.sectors l) :
    Returns (seekBody d (x, h₁.fil.clust)) h₁ fun r h₂ =>
      (∃ l₂ x', r = .inl (x', h₂.fil.clust) ∧ x'.toNat < rest ∧
          h.Along d P h₂ l l₂ ofs (q + 1) x'.toNat) ∨
        (r = .inr (.ok (x, h₁.fil.clust)) ∧ rest ≤ 512 * h.vol.fs.csize.toNat ∧ h₂ = h₁) ∨
        (r = .inr (.ok (0, 0)) ∧ h.Trails d P h₂ l l₁ ofs ∧ l₁[q]? = some h₂.fil.clust ∧
          h₂.fil.fptr.toNat = (q + 1) * (512 * h.vol.fs.csize.toNat) ∧
          (q + 1) * (512 * h.vol.fs.csize.toNat) < ofs ∧ 512 * h.vol.fs.sectors l < ofs ∧
          h₂.vol.NoRoom d) ∨
        (∃ res, r = .inr (.error res) ∧ h.SeekFails d P h₂ res) := by
  have hg := ha.chained.geometry
  have hgeom := ha.fs
  have hcsize : h₁.vol.fs.csize = h.vol.fs.csize := congrArg FatGeometry.csize hgeom
  have hB := toNat_bytesOfCluster hg
  rw [hcsize] at hB
  set B := 512 * h.vol.fs.csize.toNat with hBdef
  have hsum : q * B + rest = ofs := ha.sum
  have hptr : h₁.fil.fptr.toNat = q * B := ha.ptr
  have hw : h₁.fil.faWrite = h.fil.faWrite := by rw [ha.fil]
  have hBpos : 0 < B := by
    have hpos := hg.csize_pos
    rw [hcsize] at hpos
    omega
  obtain ⟨hqlt, -⟩ := List.getElem?_eq_some_iff.1 ha.clust
  unfold seekBody
  rw [returns_bind, returns_onVol, returns_getFs]
  refine Returns.ite (fun hmore => ?_) fun hdone => ?_
  swap
  · refine .inr (.inl ⟨rfl, ?_, rfl⟩)
    rw [UInt32.lt_iff_toNat_lt, hB, hx] at hdone
    omega
  rw [UInt32.lt_iff_toNat_lt, hB, hx] at hmore
  have hnextofs : (q + 1) * B < ofs := by
    rw [Nat.add_mul, Nat.one_mul]
    omega
  have hptr' : (h₁.fil.fptr + bytesOfCluster h₁.vol.fs.toFatGeometry).toNat = (q + 1) * B := by
    rw [UInt32.toNat_add, hptr, hB, Nat.add_mul, Nat.one_mul]
    exact Nat.mod_eq_of_lt (by omega)
  -- within the old chain there is a next cluster
  have hin : ofs ≤ 512 * h.vol.fs.sectors l → q + 1 < l₁.length := by
    intro hle
    have hl := ha.same hle
    have hsect : 512 * h.vol.fs.sectors l = l₁.length * B := by
      rw [hl, FatGeometry.sectors, hBdef, Nat.mul_left_comm]
    exact Nat.lt_of_mul_lt_mul_right (lt_of_lt_of_le hnextofs (hle.trans_eq hsect))
  have hhead : ∀ r, h₁.fil.sclust = (l₁ ++ r).headD 0 := by
    intro r
    rw [ha.start]
    cases l₁ with
    | nil => exact absurd hqlt (Nat.not_lt_zero _)
    | cons a l => rfl
  have hkeeps := ha.grows.keeps
  have hbroken : h₁.vol.Broken d → h.vol.Broken d := ha.grows.relinks.broken ha.chained
  rw [returns_bind, returns_modifyFil, returns_bind, returns_getFil]
  refine Returns.bind (seekClust_returns (h := { h₁ with fil :=
    { h₁.fil with fptr := h₁.fil.fptr + bytesOfCluster h₁.vol.fs.toFatGeometry } })
    ha.chained ha.clust fun hro => hin (hread (hw ▸ hro))) ?_
  rintro val ⟨v, f⟩ ⟨rfl, ⟨r, hval, hturns, hnext, hsame⟩ | ⟨rfl, hwr, hlast, hturns, hroom⟩ |
    ⟨rfl, hturns, hbr⟩ | ⟨rfl, hd, hs⟩⟩
  · have hne0 := ne_zero_of_cluster hval
    rw [if_neg fun hfull => hne0 hfull.2, checkClust_cluster hg hval]
    have hrest : (x - bytesOfCluster h₁.vol.fs.toFatGeometry).toNat = rest - B := by
      rw [UInt32.toNat_sub_of_le _ _ (UInt32.le_iff_toNat_le.2 (by rw [hB, hx]; omega)), hB, hx]
    have htrails := ha.toTrails.turns (c := val)
      (p := h₁.fil.fptr + bytesOfCluster h₁.vol.fs.toFatGeometry) hturns (hhead r)
      fun hle => hsame (hin hle)
    have hleft : (q + 1) * B + (x - bytesOfCluster h₁.vol.fs.toFatGeometry).toNat = ofs := by
      rw [hrest, Nat.add_mul, Nat.one_mul]
      omega
    exact .inl ⟨l₁ ++ r, _, rfl, by omega, htrails, hnext, hptr', hleft, by omega⟩
  · rw [if_pos ⟨hwr, rfl⟩]
    have htrails := ha.toTrails.turns (c := h₁.fil.clust) (r := [])
      (p := h₁.fil.fptr + bytesOfCluster h₁.vol.fs.toFatGeometry) (by simpa using hturns)
      (hhead []) fun _ => rfl
    rw [List.append_nil] at htrails
    have hbehind : 512 * h.vol.fs.sectors l < ofs :=
      Nat.lt_of_not_le fun hle => absurd hlast (hin hle).ne
    exact .inr (.inr (.inl ⟨rfl, htrails, ha.clust, hptr', hnextofs, hbehind, hroom⟩))
  · rw [if_neg fun hfull => absurd hfull.2 (by decide)]
    refine .inr (.inr (.inr ⟨.frIntErr, rfl, ?_, .inl ⟨rfl, hbroken hbr⟩⟩))
    exact hkeeps.trans (ha.grows.owned.keeps hturns.spares)
  · rw [if_neg fun hfull => absurd hfull.2 (by decide)]
    refine .inr (.inr (.inr ⟨.frDiskErr, rfl, ?_, .inr ⟨rfl, hd⟩⟩))
    exact hkeeps.trans (ha.grows.owned.keeps hs)

/-- The pointer has reached the offset, or the end of the chain on a disk that is full, and
`nsect` is its sector. -/
structure Handle.Reaches (d : Storage σ) (P : Set UInt32) (h h₁ : Handle σ) (l l₁ : List UInt32)
    (ofs : ℕ) (nsect : UInt32) : Prop extends Handle.Trails d P h h₁ l l₁ ofs where
  clust : 0 < h₁.fil.fptr.toNat →
    l₁[(h₁.fil.fptr.toNat - 1) / 512 / h.vol.fs.csize.toNat]? = some h₁.fil.clust
  sect : h₁.fil.fptr.toNat % 512 ≠ 0 → nsect = h.vol.fs.fileSect l₁ (h₁.fil.fptr.toNat / 512)
  inside : h₁.fil.fptr.toNat ≤ 512 * h.vol.fs.sectors l₁
  ptr : h₁.fil.fptr.toNat = ofs ∨
    (h₁.fil.fptr.toNat < ofs ∧ 512 * h.vol.fs.sectors l < ofs ∧ h₁.vol.NoRoom d ∧
      h₁.fil.fptr.toNat % 512 = 0)

/-- The place of an offset in its cluster. -/
theorem div_cluster {c : ℕ} (hpos : 0 < rest) (hle : rest ≤ 512 * c) :
    (q * (512 * c) + rest - 1) / 512 / c = q ∧
      (rest % 512 ≠ 0 → (q * (512 * c) + rest) / 512 = c * q + rest / 512 ∧ rest / 512 < c) := by
  have hcpos : 0 < 512 * c := by omega
  have hmul : q * (512 * c) = 512 * (c * q) := by rw [Nat.mul_comm, Nat.mul_assoc]
  constructor
  · rw [Nat.div_div_eq_div_mul]
    generalize 512 * c = B at *
    exact Nat.div_eq_of_lt_le (by omega) (by rw [Nat.add_mul]; omega)
  · intro hne
    rw [hmul]
    omega

/-- The rest of the offset is added to the pointer. -/
theorem seekSect_returns (ha : h.Along d P h₁ l l₁ ofs q rest) {x : UInt32} (hx : x.toNat = rest)
    (hle : rest ≤ 512 * h.vol.fs.csize.toNat) (hofs : ofs < 2 ^ 32) :
    Returns (seekSect x h₁.fil.clust) h₁ fun r h₂ =>
      ∃ nsect, r = .ok nsect ∧ h.Reaches d P h₂ l l₁ ofs nsect := by
  have hg := ha.chained.geometry
  have hsum := ha.sum
  have hptr := ha.ptr
  have hcl := ha.chained.mem _ (List.mem_of_getElem? ha.clust)
  obtain ⟨hlast, hsect⟩ := div_cluster (q := q) ha.pos hle
  rw [hsum] at hlast hsect
  have hptr' : (h₁.fil.fptr + x).toNat = ofs := by
    rw [UInt32.toNat_add, hptr, hx, hsum]
    exact Nat.mod_eq_of_lt hofs
  have hmod : x % 512 ≠ 0 ↔ rest % 512 ≠ 0 := by rw [Ne, mod_512_eq_zero, hx]
  have hofsmod : ofs % 512 = rest % 512 := by
    have hmul : q * (512 * h.vol.fs.csize.toNat) = 512 * (q * h.vol.fs.csize.toNat) :=
      Nat.mul_left_comm ..
    omega
  have hinside : ofs ≤ 512 * h.vol.fs.sectors l₁ := by
    obtain ⟨hq, -⟩ := List.getElem?_eq_some_iff.1 ha.clust
    have hmul := Nat.mul_le_mul_right (512 * h.vol.fs.csize.toNat) (Nat.succ_le_of_lt hq)
    rw [Nat.succ_mul] at hmul
    rw [FatGeometry.sectors, Nat.mul_left_comm]
    omega
  have hreach : ∀ nsect, (rest % 512 ≠ 0 → nsect = h.vol.fs.fileSect l₁ (ofs / 512)) →
      h.Reaches d P { h₁ with fil := { h₁.fil with fptr := h₁.fil.fptr + x } } l l₁ ofs nsect := by
    intro nsect hn
    refine ⟨⟨ha.grows, ha.view, ha.same, by rw [ha.fil]⟩, fun _ => ?_, fun hne => ?_, ?_,
      .inl hptr'⟩
    · simp only [hptr', hlast]
      exact ha.clust
    · simp only [hptr'] at hne ⊢
      exact hn (by rwa [← hofsmod])
    · simp only [hptr']
      exact hinside
  unfold seekSect
  rw [returns_bind, returns_onVol, returns_getFs, returns_bind, returns_modifyFil]
  refine Returns.ite (fun hne => ?_) fun hzero =>
    ⟨0, rfl, hreach 0 fun hne => absurd (hmod.2 hne) hzero⟩
  rw [if_neg (clst2sect_ne_zero hg hcl)]
  refine ⟨_, rfl, hreach _ fun hne' => ?_⟩
  obtain ⟨hdiv, hlt⟩ := hsect hne'
  rw [ha.fs, fileSect, hdiv, Nat.mul_add_div (by omega), Nat.div_eq_of_lt hlt, Nat.add_zero,
    Nat.mul_add_mod, Nat.mod_eq_of_lt hlt, List.getD_eq_getElem?_getD, ha.clust,
    Option.getD_some]
  congr 1
  apply UInt32.toNat_inj.1
  have hx512 : (x / 512).toNat = rest / 512 := by rw [UInt32.toNat_div, hx]; rfl
  rw [hx512, UInt32.toNat_ofNat_of_lt' (by rw [UInt32.size]; omega)]

/-- The seek from a cluster on the way. -/
theorem seekAlong_returns (ha : h.Along d P h₁ l l₁ ofs q rest) {x : UInt32}
    (hx : x.toNat = rest) (hofs : ofs < 2 ^ 32)
    (hread : h.fil.faWrite = false → ofs ≤ 512 * h.vol.fs.sectors l) :
    Returns (seekAlong d x h₁.fil.clust) h₁ fun r h₂ =>
      (∃ nsect l₂, r = .ok nsect ∧ h.Reaches d P h₂ l l₂ ofs nsect) ∨
        (∃ res, r = .error res ∧ h.SeekFails d P h₂ res) := by
  have hcl := ha.chained.mem _ (List.mem_of_getElem? ha.clust)
  unfold seekAlong
  rw [if_neg (ne_zero_of_cluster hcl)]
  refine Returns.bind (Returns.iterate
    (J := fun b h₂ => ∃ l₂ q, b.2 = h₂.fil.clust ∧ h.Along d P h₂ l l₂ ofs q b.1.toNat)
    (R := fun r h₂ =>
      (∃ l₂ q x, r = .ok (x, h₂.fil.clust) ∧ h.Along d P h₂ l l₂ ofs q x.toNat ∧
        x.toNat ≤ 512 * h.vol.fs.csize.toNat) ∨
      (r = .ok (0, 0) ∧ ∃ l₂ q, h.Trails d P h₂ l l₂ ofs ∧ l₂[q]? = some h₂.fil.clust ∧
        h₂.fil.fptr.toNat = (q + 1) * (512 * h.vol.fs.csize.toNat) ∧
        (q + 1) * (512 * h.vol.fs.csize.toNat) < ofs ∧ 512 * h.vol.fs.sectors l < ofs ∧
        h₂.vol.NoRoom d) ∨
      (∃ res, r = .error res ∧ h.SeekFails d P h₂ res))
    (fun b _ => b.1.toNat) ?_ _ _ _ ⟨l₁, q, rfl, hx ▸ ha⟩ (Nat.lt_succ_self _)) ?_
  · rintro ⟨x, c⟩ h₂ ⟨l₂, q, rfl, ha₂⟩
    refine (seekBody_returns ha₂ rfl hofs hread).imp ?_
    rintro r h₃ (⟨l₃, x', rfl, hlt, ha₃⟩ | ⟨rfl, hle, rfl⟩ | ⟨rfl, hfull⟩ | ⟨res, rfl, hfail⟩)
    · exact ⟨⟨l₃, q + 1, rfl, ha₃⟩, hlt⟩
    · exact .inl ⟨l₂, q, x, rfl, ha₂, hle⟩
    · exact .inr (.inl ⟨rfl, l₂, q, hfull⟩)
    · exact .inr (.inr ⟨res, rfl, hfail⟩)
  · rintro r h₂ (⟨l₂, q, x, rfl, ha₂, hle⟩ | ⟨rfl, l₂, q, ht, hq, hptr, hlt, hbehind, hroom⟩ |
      ⟨res, rfl, hfail⟩)
    · refine (seekSect_returns ha₂ rfl hle hofs).imp ?_
      rintro r h₃ ⟨nsect, rfl, hr⟩
      exact .inl ⟨nsect, l₂, rfl, hr⟩
    · -- the end of the chain is the end of a cluster
      have hBpos : 0 < 512 * h.vol.fs.csize.toNat := by
        have hpos := ht.chained.geometry.csize_pos
        rw [show h₂.vol.fs.csize = h.vol.fs.csize from congrArg FatGeometry.csize ht.fs] at hpos
        omega
      obtain ⟨hlast, -⟩ := div_cluster (q := q) hBpos le_rfl
      rw [← Nat.succ_mul] at hlast
      have hmod : h₂.fil.fptr.toNat % 512 = 0 := by
        rw [hptr, Nat.mul_left_comm]
        exact Nat.mul_mod_right ..
      have hinside : h₂.fil.fptr.toNat ≤ 512 * h.vol.fs.sectors l₂ := by
        obtain ⟨hqlt, -⟩ := List.getElem?_eq_some_iff.1 hq
        rw [hptr, FatGeometry.sectors, Nat.mul_left_comm 512]
        exact Nat.mul_le_mul_right _ hqlt
      unfold seekSect
      rw [returns_bind, returns_onVol, returns_getFs, returns_bind, returns_modifyFil,
        if_neg (by decide), UInt32.add_zero]
      refine .inl ⟨0, l₂, rfl, ⟨ht.grows, ht.view, ht.same, ht.fil⟩, fun _ => ?_, fun hne => ?_,
        hinside, .inr ⟨by rw [hptr]; exact hlt, hbehind, hroom, hmod⟩⟩
      · rw [hptr, hlast]
        exact hq
      · exact absurd hmod hne
    · exact .inr ⟨res, rfl, hfail⟩

/-- Where a seek begins. -/
theorem seekStart_returns (hf : h.Fits d P l) (hat : h.At l) {x : UInt32} (hx : 0 < x.toNat) :
    Returns (seekStart d x) h fun r h₁ =>
      (∃ l₁ q x', r = .ok (x', h₁.fil.clust) ∧ h.Along d P h₁ l l₁ x.toNat q x'.toNat) ∨
        (r = .ok (x, 0) ∧ h.Reaches d P h₁ l l x.toNat 0) ∨
        (∃ res, r = .error res ∧ h.SeekFails d P h₁ res) := by
  have hg := hf.owned.geometry
  have hB := toNat_bytesOfCluster hg
  have hpos := hg.csize_pos
  have hone := toNat_sub_one hx
  unfold seekStart
  rw [returns_bind, returns_onVol, returns_getFs, returns_bind, returns_getFil]
  refine Returns.ite (fun hsame => ?_) fun _ => ?_
  · obtain ⟨hptr, hle⟩ := hsame
    replace hptr : 0 < h.fil.fptr.toNat := UInt32.lt_iff_toNat_lt.1 hptr
    have hptr1 := toNat_sub_one hptr
    rw [UInt32.le_iff_toNat_le, UInt32.toNat_div, UInt32.toNat_div, hptr1, hone, hB] at hle
    have hstart := toNat_clusterStart hg (h.fil.fptr - 1)
    rw [hptr1] at hstart
    have hclust := hat.clust hptr
    rw [Nat.div_div_eq_div_mul] at hclust
    set B := 512 * h.vol.fs.csize.toNat
    have hbelow : (h.fil.fptr.toNat - 1) / B * B ≤ x.toNat - 1 :=
      (Nat.mul_le_mul_right B hle).trans (Nat.div_mul_le_self ..)
    have hrest : (x - (h.fil.fptr - 1 &&& ~~~(bytesOfCluster h.vol.fs.toFatGeometry - 1))).toNat =
        x.toNat - (h.fil.fptr.toNat - 1) / B * B := by
      rw [UInt32.toNat_sub_of_le _ _ (UInt32.le_iff_toNat_le.2 (by rw [hstart]; omega)), hstart]
    have hsum : (h.fil.fptr.toNat - 1) / B * B +
        (x - (h.fil.fptr - 1 &&& ~~~(bytesOfCluster h.vol.fs.toFatGeometry - 1))).toNat =
          x.toNat := by
      omega
    rw [returns_bind, returns_modifyFil]
    refine .inl ⟨l, _, _, rfl, .refl hf rfl rfl, hclust, hstart, hsum, ?_⟩
    rw [hrest]
    exact Nat.sub_pos_of_lt (by omega)
  refine Returns.ite (fun hnone => ?_) fun hsome => ?_
  · have hl : l = [] := by
      have hstart := hf.start
      cases l with
      | nil => rfl
      | cons a l =>
        have ha : h.fil.sclust = a := hstart
        exact absurd (ha ▸ hnone) (ne_zero_of_cluster (hf.owned.mem a (by simp)))
    subst hl
    have htrails : h.Trails d P (h.withPtr 0) [] [] x.toNat := .refl hf rfl rfl
    rw [returns_bind, returns_modifyFil, returns_bind, returns_onVol]
    refine (createChain_grows hf.owned.toChained (.inl ⟨rfl, rfl⟩)).imp ?_
    rintro val v (⟨rfl, ht, hroom⟩ | ⟨rfl, ht, hbr⟩ | ⟨hval, ht⟩ | ⟨rfl, hd, hs⟩)
    · rw [if_neg (by decide), if_neg (by decide), returns_bind, returns_modifyFil]
      have htrails' := htrails.turns (s := 0) (c := 0) (p := 0) (r := []) ht rfl fun _ => rfl
      refine .inr (.inl ⟨rfl, htrails', fun h0 => absurd h0 (Nat.lt_irrefl 0),
        fun h0 => absurd rfl h0, Nat.zero_le _, .inr ⟨hx, ?_, hroom, rfl⟩⟩)
      simpa [FatGeometry.sectors] using hx
    · rw [if_pos rfl]
      exact .inr (.inr ⟨_, rfl, hf.owned.keeps ht.spares, .inl ⟨rfl, hbr⟩⟩)
    · have hne1 : val ≠ 1 := by
        rintro rfl
        exact absurd hval.1 (by decide)
      rw [if_neg hne1, if_neg (cluster_ne_diskError hg hval), returns_bind, returns_modifyFil]
      have htrails' := htrails.turns (s := val) (c := val) (p := 0) (r := [val]) ht rfl
        fun hle => by
          simp [FatGeometry.sectors] at hle
          omega
      exact .inl ⟨[val], 0, x, rfl, htrails', rfl, by simp, by simp, hx⟩
    · rw [if_neg (by decide), if_pos rfl]
      exact .inr (.inr ⟨_, rfl, hf.owned.keeps hs, .inr ⟨rfl, hd⟩⟩)
  · rw [returns_bind, returns_modifyFil]
    refine .inl ⟨l, 0, x, rfl, .refl hf rfl rfl, ?_, by simp, by simp, hx⟩
    have hstart := hf.start
    cases l with
    | nil => exact absurd hstart hsome
    | cons a l =>
      have ha : h.fil.sclust = a := hstart
      simp [ha]

/-- The pointer is moved. -/
theorem seekTo_returns (hf : h.Fits d P l) (hat : h.At l) {x : UInt32}
    (hread : h.fil.faWrite = false → x.toNat ≤ 512 * h.vol.fs.sectors l) :
    Returns (seekTo d x) h fun r h₂ =>
      (∃ nsect l₂, r = .ok nsect ∧ h.Reaches d P h₂ l l₂ x.toNat nsect) ∨
        (∃ res, r = .error res ∧ h.SeekFails d P h₂ res) := by
  unfold seekTo
  refine Returns.ite (fun hpos => ?_) fun hzero => ?_
  · rw [UInt32.lt_iff_toNat_lt, UInt32.toNat_zero] at hpos
    refine Returns.bind (seekStart_returns hf hat hpos) ?_
    rintro r h₁ (⟨l₁, q, x', rfl, ha⟩ | ⟨rfl, hr⟩ | ⟨res, rfl, hfail⟩)
    · exact seekAlong_returns ha rfl x.toNat_lt hread
    · simp only [seekAlong, if_pos]
      exact .inl ⟨0, l, rfl, hr⟩
    · exact .inr ⟨res, rfl, hfail⟩
  · have hx : x.toNat = 0 := by
      rw [UInt32.lt_iff_toNat_lt, UInt32.toNat_zero] at hzero
      omega
    rw [returns_bind, returns_modifyFil]
    exact .inl ⟨0, l, rfl, .refl hf rfl rfl, fun h0 => absurd h0 (Nat.lt_irrefl 0),
      fun h0 => absurd rfl h0, Nat.zero_le _, .inl hx.symm⟩

/-- A clean buffer of a sector of the data area holds all that is seen of it, also behind the end
of the file. -/
def Handle.Exact (d : Storage σ) (h : Handle σ) : Prop :=
  h.fil.faDirty = false → h.vol.fs.InClusters Set.univ h.fil.sect →
    h.fil.buf = h.vol.view d h.fil.sect

/-- The size of the file is that up to the pointer, if the pointer is behind the end. -/
def Handle.stretch (h : Handle σ) : Handle σ :=
  { h with fil := if h.fil.objsize < h.fil.fptr then
      { h.fil with objsize := h.fil.fptr, faModified := true } else h.fil }

theorem Handle.toNat_stretch (h : Handle σ) :
    h.stretch.fil.objsize.toNat = max h.fil.objsize.toNat h.fil.fptr.toNat := by
  unfold Handle.stretch
  dsimp only
  split_ifs with hlt
  · exact (max_eq_right (UInt32.lt_iff_toNat_lt.1 hlt).le).symm
  · exact (max_eq_left (UInt32.le_iff_toNat_le.1 (UInt32.not_lt.1 hlt))).symm

/-- The file where the pointer has reached its place. -/
theorem Handle.Reaches.fits {nsect : UInt32} (hr : h.Reaches d P h₁ l l₁ ofs nsect)
    (hx : ofs ≤ h.fil.objsize.toNat ∨ h.Exact d) :
    Handle.Fits d P h₁.stretch l₁ ∧
      h₁.stretch.fil = { h₁.fil with
        objsize := h₁.stretch.fil.objsize, faModified := h₁.stretch.fil.faModified } := by
  have hg := hr.grows
  have hsize := h₁.toNat_stretch
  have hfil : h₁.stretch.fil = { h₁.fil with
      objsize := h₁.stretch.fil.objsize, faModified := h₁.stretch.fil.faModified } := by
    unfold Handle.stretch
    dsimp only
    split_ifs <;> rfl
  have hobj : h₁.fil.objsize = h.fil.objsize := by rw [hr.fil]
  have hsect : h₁.fil.sect = h.fil.sect := by rw [hr.fil]
  have hbuf : h₁.fil.buf = h.fil.buf := by rw [hr.fil]
  have hdirty : h₁.fil.faDirty = h.fil.faDirty := by rw [hr.fil]
  have hold : h₁.fil.objsize.toNat ≤ 512 * h₁.vol.fs.sectors l₁ := hg.size
  have hinside := hr.inside
  have hgeom : h₁.vol.fs.toFatGeometry = h.vol.fs.toFatGeometry := hr.fs
  rw [← hgeom] at hinside
  refine ⟨⟨hg.owned, ?_, ?_, ?_, ?_, fun hclean p hp hs => ?_⟩, hfil⟩
  · rw [hfil]
    exact hg.start
  · rw [hsize]
    exact max_le hold hinside
  · rw [hsize, hfil]
    exact le_max_right ..
  · rw [hfil]
    exact hg.dirty
  · rw [hfil] at hclean hs ⊢
    rw [hsize] at hp
    by_cases hin : p < h₁.fil.objsize.toNat
    · exact hg.clean hclean p hin hs
    · -- behind the old end of the file
      have hbehind : h.fil.objsize.toNat < h₁.fil.fptr.toNat := by
        rw [hobj] at hin hp
        omega
      have hofs : ¬ ofs ≤ h.fil.objsize.toNat := by
        intro hle
        obtain hptr | hptr := hr.ptr <;> omega
      have hn : p / 512 < h₁.vol.fs.sectors l₁ := by omega
      obtain ⟨c, -, k, hcl, hk, heq⟩ := exists_fileSect hg.owned.geometry hg.owned.mem hn
      have hcluster : h.vol.fs.InClusters Set.univ h.fil.sect := by
        rw [← hsect, ← hgeom, ← hs]
        exact ⟨c, trivial, k, hcl, hk, heq⟩
      have hexact := (hx.resolve_left hofs) (hdirty ▸ hclean) hcluster
      have hfat : ¬ h.vol.fs.InFat h.fil.sect := by
        rw [← hsect, ← hgeom, ← hs]
        exact fileSect_not_inFat hg.owned.geometry hg.owned.mem hn
      show h₁.fil.buf.at p = (h₁.vol.view d h₁.fil.sect).at p
      rw [hbuf, hsect, hr.view _ hfat, hexact]

/-- The sector of the pointer is in the buffer, whatever it was before. -/
theorem seekLoad_returns {nsect : UInt32} (hf : h.Fits d P l)
    (hclust : 0 < h.fil.fptr.toNat →
      l[(h.fil.fptr.toNat - 1) / 512 / h.vol.fs.csize.toNat]? = some h.fil.clust)
    (hsect : h.fil.fptr.toNat % 512 ≠ 0 →
      nsect = h.vol.fs.fileSect l (h.fil.fptr.toNat / 512)) :
    Returns (seekLoad d nsect) h fun r h' =>
      h.vol.Keeps d P h'.vol ∧ (h.fil.fptr.toNat % 512 = 0 → h'.vol = h.vol) ∧
        ((r = .frOk ∧ h.Still d P h' l ∧ h'.At l ∧ h'.fil = { h.fil with
            faDirty := h'.fil.faDirty, sect := h'.fil.sect, buf := h'.fil.buf }) ∨
          (r = .frDiskErr ∧ ¬ d.Reliable)) := by
  have hmod : h.fil.fptr % 512 ≠ 0 ↔ h.fil.fptr.toNat % 512 ≠ 0 := by rw [Ne, mod_512_eq_zero]
  unfold seekLoad
  rw [returns_bind, returns_getFil]
  refine Returns.ite (fun hload => ?_) fun hstay => ?_
  swap
  · refine ⟨.refl hf.owned.coherent, fun _ => rfl, .inl ⟨rfl, .refl hf, ⟨hclust, fun hne => ?_⟩,
      rfl⟩⟩
    have hsame : nsect = h.fil.sect := by
      by_contra hno
      exact hstay ⟨hmod.2 hne, hno⟩
    rw [← hsame, hsect hne]
  obtain ⟨hne, -⟩ := hload
  rw [hmod] at hne
  have hn : h.fil.fptr.toNat / 512 < h.vol.fs.sectors l := by
    have hpos := hf.pos
    have hsize := hf.size
    omega
  obtain rfl := hsect hne
  refine Returns.bind (writeBack_returns hf) ?_
  rintro r h₁ ⟨hs, hfs, ⟨rfl, hfil⟩ | ⟨rfl, hd, -⟩⟩
  swap
  · exact ⟨hs.keeps, fun h0 => absurd h0 hne, .inr ⟨rfl, hd⟩⟩
  have hf₁ := hs.toFits
  rw [if_pos rfl, returns_bind, returns_onVol, ← hfs]
  refine (diskReads_file hf₁.owned (m := 1) (Nat.mod_lt _ hf₁.owned.geometry.csize_pos)
    (by rw [hfs]; exact hn)).imp ?_
  rintro ⟨status, data⟩ v ⟨hw, hr⟩
  rw [returns_bind, returns_modifyFil]
  refine Returns.ite (fun hok => ?_) fun hok =>
    ⟨hs.keeps.trans hw.toKeeps, fun h0 => absurd h0 hne, .inr ⟨rfl, ?_⟩⟩
  swap
  · exact (hr.resolve_left fun h => hok h.1).2
  have hdata : data 0 = h₁.vol.view d (h₁.vol.fs.fileSect l (h.fil.fptr.toNat / 512)) :=
    (hr.resolve_right fun h => h.1 hok).2 0 (by decide)
  have hread := hf₁.read hw
  have hview : v.view d = h₁.vol.view d := hw.view_eq
  have hload := hread.toFits.load (b := data 0)
    (s := h₁.vol.fs.fileSect l (h.fil.fptr.toNat / 512)) (by rw [hfil])
    fun p _ _ => by rw [hdata, hview]
  rw [returns_bind, returns_modifyFil]
  have hptr : h₁.fil.fptr = h.fil.fptr := by rw [hfil]
  refine ⟨hs.keeps.trans hw.toKeeps, fun h0 => absurd h0 hne,
    .inl ⟨rfl, hs.trans (hread.trans hload), ⟨fun hpos => ?_, fun _ => ?_⟩, by rw [hfil]⟩⟩
  · simp only [hw.fs, hfs, hfil] at hpos ⊢
    exact hclust hpos
  · simp only [hw.fs, hptr]

end Steps

/-! ## The functions -/

section Whole

variable {d} {P : Set UInt32} {h h' : Handle σ} {l l' : List UInt32}

/-- The pointer has been moved : the bytes up to the old end of the file are the same, and the
file reaches at least to the pointer. -/
structure Handle.Seeks (d : Storage σ) (P : Set UInt32) (h h' : Handle σ) (l l' : List UInt32) :
    Prop extends Handle.Fits d P h' l' where
  keeps : h.vol.Keeps d P h'.vol
  relinks : h.vol.Relinks d h'.vol l l'
  tail : ∃ r, l' = l ++ r
  at_ : h'.At l'
  grown : h'.fil.objsize.toNat = max h.fil.objsize.toNat h'.fil.fptr.toNat
  byte : ∀ p < h.fil.objsize.toNat, h'.byte d l' p = h.byte d l p
  fil : h'.fil = { h.fil with
    sclust := h'.fil.sclust, objsize := h'.fil.objsize, faModified := h'.fil.faModified,
    faDirty := h'.fil.faDirty, fptr := h'.fil.fptr, clust := h'.fil.clust,
    sect := h'.fil.sect, buf := h'.fil.buf }

theorem orAbort_returns {res : FResult} :
    Returns (orAbort res) h fun r h' => r = res ∧ h'.vol = h.vol ∧
      ((res = .frOk ∧ h' = h) ∨ (res ≠ .frOk ∧ h'.fil.err = res)) := by
  unfold orAbort
  refine Returns.ite (fun hok => ⟨hok.symm, rfl, .inl ⟨hok, rfl⟩⟩) fun hbad => ?_
  rw [returns_bind]
  exact ⟨rfl, rfl, .inr ⟨hbad, rfl⟩⟩

/-- What `f_lseek` does : the pointer is set to the offset, without write access at most to the
end of the file; with it the file is made longer up to the pointer, or as far as there are free
clusters. The bytes of the file are the same. The hypothesis `hx` is for a pointer behind the
end. -/
theorem fLseek_returns (hf : h.Fits d P l) (hat : h.At l) (ofs : UInt32)
    (hx : ofs ≤ h.fil.objsize ∨ h.fil.faWrite = false ∨ h.Exact d) :
    Returns (fLseek d ofs) h fun r h' =>
      (¬ h.Ready d ∧ r = h.refusal d ∧ h' = h) ∨
        (h.Ready d ∧ ∃ n,
          n = (if h.fil.faWrite then ofs.toNat else min ofs.toNat h.fil.objsize.toNat) ∧
          ((r = .frOk ∧ ∃ l', h.Seeks d P h' l l' ∧ (h'.fil.fptr.toNat = n ∨
              (h'.fil.fptr.toNat < n ∧ 512 * h.vol.fs.sectors l < n ∧ h'.vol.NoRoom d))) ∨
            (h.vol.Keeps d P h'.vol ∧ h'.fil.err = r ∧
              ((r = .frIntErr ∧ h.vol.Broken d) ∨ (r = .frDiskErr ∧ ¬ d.Reliable))))) := by
  unfold fLseek
  refine Returns.bind (checkFile_returns hf.owned.geometry.mounted) ?_
  rintro res h₁ ⟨rfl, hres, hcode⟩
  refine Returns.ite (fun hbad => .inl ⟨fun h => hbad (hres.2 h), hcode hbad, rfl⟩) fun hok => ?_
  have hready := hres.1 (not_not.1 hok)
  rw [returns_bind, returns_getFil]
  set x := if h₁.fil.objsize < ofs ∧ ¬ h₁.fil.faWrite = true then h₁.fil.objsize else ofs
    with hxdef
  have hn : x.toNat =
      if h₁.fil.faWrite then ofs.toNat else min ofs.toNat h₁.fil.objsize.toNat := by
    simp only [hxdef, apply_ite UInt32.toNat, UInt32.lt_iff_toNat_lt]
    split_ifs with h1 h2 <;> grind
  have hread : h₁.fil.faWrite = false → x.toNat ≤ 512 * h₁.vol.fs.sectors l := by
    intro hro
    have hsize := hf.size
    rw [hn, hro]
    simp only [Bool.false_eq_true, if_false]
    omega
  have hx' : x.toNat ≤ h₁.fil.objsize.toNat ∨ h₁.Exact d := by
    rw [hn]
    obtain hle | hro | hexact := hx
    · rw [UInt32.le_iff_toNat_le] at hle
      left
      split_ifs <;> omega
    · left
      simp [hro]
    · exact .inr hexact
  refine Returns.bind (seekTo_returns hf hat hread) ?_
  rintro r h₂ (⟨nsect, l₂, rfl, hr⟩ | ⟨res, rfl, hk, hwhy⟩)
  swap
  · refine orAbort_returns.imp ?_
    rintro r h₃ ⟨rfl, hvol, ⟨rfl, -⟩ | ⟨-, herr⟩⟩
    · obtain ⟨hbad, -⟩ | ⟨hbad, -⟩ := hwhy <;> exact absurd hbad (by decide)
    · exact .inr ⟨hready, _, hn, .inr ⟨by rwa [hvol], herr, hwhy⟩⟩
  obtain ⟨hfits, hfil⟩ := hr.fits hx'
  rw [returns_bind, returns_modifyFil]
  have hvol₂ : h₂.stretch.vol = h₂.vol := rfl
  have hptr₂ : h₂.stretch.fil.fptr = h₂.fil.fptr := by rw [hfil]
  have hclust₂ : h₂.stretch.fil.clust = h₂.fil.clust := by rw [hfil]
  refine Returns.bind (seekLoad_returns (h := h₂.stretch) hfits ?_ ?_) ?_
  · rw [hptr₂, hclust₂, hvol₂, hr.fs]
    exact hr.clust
  · rw [hptr₂, hvol₂, hr.fs]
    exact hr.sect
  rintro r h₃ ⟨hk₃, hsame, ⟨rfl, hs, hat₃, hfil₃⟩ | ⟨rfl, hd⟩⟩
  · refine orAbort_returns.imp ?_
    rintro r h₄ ⟨rfl, -, ⟨-, rfl⟩ | ⟨hbad, -⟩⟩
    swap
    · exact absurd rfl hbad
    have hptr₃ : h₄.fil.fptr = h₂.fil.fptr := by rw [hfil₃, hptr₂]
    have hobj : h₂.fil.objsize = h₁.fil.objsize := by rw [hr.fil]
    refine .inr ⟨hready, _, hn, .inl ⟨rfl, l₂, ⟨hs.toFits, hr.grows.keeps.trans hk₃,
      hr.grows.relinks.trans hs.relinks, hr.grows.tail, hat₃, ?_, fun p hp => ?_, ?_⟩, ?_⟩⟩
    · rw [hptr₃, ← hobj, ← h₂.toNat_stretch, hfil₃]
    · have hin : p / 512 < h₂.vol.fs.sectors l₂ :=
        lt_of_lt_of_le (hf.div_lt hp) hr.grows.sectors
      have hdirty : h₂.stretch.fil.faDirty = h₂.fil.faDirty := by rw [hfil]
      have hsect : h₂.stretch.fil.sect = h₂.fil.sect := by rw [hfil]
      have hbuf : h₂.stretch.fil.buf = h₂.fil.buf := by rw [hfil]
      have hbyte : h₂.stretch.byte d l₂ p = (h₂.withPtr h₁.fil.fptr).byte d l₂ p := by
        simp only [Handle.byte, hdirty, hsect, hbuf]
        rfl
      rw [hs.byte p hin, hbyte, hr.grows.byte p (hf.div_lt hp)]
    · rw [hfil₃, hfil, hr.fil]
    · rw [hptr₃]
      refine hr.ptr.imp_right fun hfull => ⟨hfull.1, hfull.2.1, ?_⟩
      rw [hsame (by rw [hptr₂]; exact hfull.2.2.2)]
      exact hfull.2.2.1
  · refine orAbort_returns.imp ?_
    rintro r h₄ ⟨rfl, hvol, ⟨hbad, -⟩ | ⟨-, herr⟩⟩
    · exact absurd hbad (by decide)
    · refine .inr ⟨hready, _, hn, .inr ⟨?_, herr, .inr ⟨rfl, hd⟩⟩⟩
      rw [hvol]
      exact hr.grows.keeps.trans hk₃

/-- The clusters behind the pointer are given back, and no other ones. -/
theorem truncChain_returns (hf : h.Fits d P l) (hat : h.At l)
    (hlt : h.fil.fptr.toNat < h.fil.objsize.toNat) :
    Returns (truncChain d) h fun res h' =>
      h.vol.Keeps d P h'.vol ∧
        ((res = .frOk ∧ ∃ l' r, l = l' ++ r ∧ h.vol.Turns d h'.vol l l' ∧
            h'.fil = { h.fil with sclust := l'.headD 0 } ∧
            h.fil.fptr.toNat ≤ 512 * h.vol.fs.sectors l' ∧
            512 * h.vol.fs.sectors l' < h.fil.fptr.toNat + 512 * h.vol.fs.csize.toNat ∧
            (0 < h.fil.fptr.toNat →
              l'[(h.fil.fptr.toNat - 1) / 512 / h.vol.fs.csize.toNat]? = some h.fil.clust)) ∨
          (res = .frDiskErr ∧ ¬ d.Reliable)) := by
  have hg := hf.owned.geometry
  have hchained := hf.owned.toChained
  have hsize := hf.size
  have hcpos := hg.csize_pos
  unfold truncChain
  rw [returns_bind, returns_getFil]
  refine Returns.ite (fun h0 => ?_) fun h0 => ?_
  · have hzero : h.fil.fptr.toNat = 0 := by rw [h0]; rfl
    cases l with
    | nil =>
      simp only [FatGeometry.sectors, List.length_nil] at hsize
      omega
    | cons a l =>
      have ha : h.fil.sclust = a := hf.start
      rw [returns_bind, returns_onVol, ha]
      refine (removeChain_releases hchained).imp ?_
      rintro r v (⟨rfl, ht⟩ | ⟨rfl, hd, hs⟩)
      · rw [returns_bind, returns_modifyFil]
        have hnil : h.vol.fs.sectors [] = 0 := Nat.zero_mul _
        exact ⟨hf.owned.keeps ht.spares, .inl ⟨rfl, [], a :: l, rfl, ht, rfl, by omega, by omega,
          fun hpos => absurd hzero hpos.ne'⟩⟩
      · rw [returns_bind, returns_modifyFil]
        exact ⟨hf.owned.keeps hs, .inr ⟨rfl, hd⟩⟩
  have hpos : 0 < h.fil.fptr.toNat := Nat.pos_of_ne_zero fun h => h0 (UInt32.toNat_inj.1 h)
  have hclust := hat.clust hpos
  set k := (h.fil.fptr.toNat - 1) / 512 / h.vol.fs.csize.toNat with hk
  obtain ⟨hklt, hget⟩ := List.getElem?_eq_some_iff.1 hclust
  -- the pointer is in the cluster `k` or at its end
  have hroom : 512 * (k * h.vol.fs.csize.toNat) < h.fil.fptr.toNat ∧
      h.fil.fptr.toNat ≤ 512 * ((k + 1) * h.vol.fs.csize.toNat) := by
    have hdiv := Nat.div_add_mod ((h.fil.fptr.toNat - 1) / 512) h.vol.fs.csize.toNat
    have hmod := Nat.mod_lt ((h.fil.fptr.toNat - 1) / 512) hcpos
    rw [← hk, Nat.mul_comm] at hdiv
    rw [Nat.add_mul, Nat.one_mul]
    omega
  have hbounds : ∀ l' : List UInt32, l'.length = k + 1 →
      h.fil.fptr.toNat ≤ 512 * h.vol.fs.sectors l' ∧
        512 * h.vol.fs.sectors l' < h.fil.fptr.toNat + 512 * h.vol.fs.csize.toNat := by
    intro l' hl'
    rw [Nat.add_mul, Nat.one_mul] at hroom
    rw [FatGeometry.sectors, hl', Nat.add_mul, Nat.one_mul]
    omega
  have hhead : ∀ l' : List UInt32, l'.length = k + 1 → (∃ r, l = l' ++ r) →
      h.fil.sclust = l'.headD 0 := by
    rintro l' hl' ⟨r, rfl⟩
    rw [hf.start]
    cases l' with
    | nil => exact absurd hl' (by simp)
    | cons a l' => rfl
  rw [returns_bind, returns_onVol, returns_getFs, returns_bind, returns_onVol]
  by_cases hlast : k + 1 = l.length
  · obtain ⟨l₀, heq⟩ := exists_append_last hclust hlast
    have hend := hchained
    rw [heq] at hend
    have hentry := hend.entry_last
    refine (getFat_returns hg hchained.coherent
      (hchained.mem _ (List.mem_of_getElem? hclust))).imp ?_
    rintro ncl v ⟨hr, rfl | ⟨rfl, hd⟩⟩
    swap
    · rw [if_pos rfl]
      exact ⟨hf.owned.keeps (hchained.reads hr).spares, .inr ⟨rfl, hd⟩⟩
    have hmin := hg.minEntries
    have hne1 : h.vol.entry d h.fil.clust ≠ 1 := by
      intro h1
      rw [h1, UInt32.le_iff_toNat_le, UInt32.toNat_one] at hentry
      omega
    rw [if_neg entry_ne_diskError, if_neg hne1, if_neg (UInt32.not_lt.2 hentry)]
    have hbound := hbounds l hlast.symm
    refine ⟨hf.owned.keeps (hchained.reads hr).spares, .inl ⟨rfl, l, [], (List.append_nil l).symm,
      hchained.reads hr, ?_, hbound.1, hbound.2, fun _ => hclust⟩⟩
    rw [← hf.start]
  · have hidx : k + 1 < l.length := by omega
    have hnext := List.getElem?_eq_getElem hidx
    obtain ⟨l₁, l₂, heq⟩ := exists_append_next hclust hnext
    have hlen : l₁.length = k := by
      have hone : l[l₁.length]? = some h.fil.clust := by rw [heq]; simp
      obtain ⟨hlt₁, hget₁⟩ := List.getElem?_eq_some_iff.1 hone
      exact (hf.nodup.getElem_inj_iff).1 (hget₁.trans hget.symm)
    refine (getFat_next hchained hclust hidx).imp ?_
    rintro ncl v ⟨hr, hncl | ⟨rfl, hd⟩⟩
    swap
    · rw [if_pos rfl]
      exact ⟨hf.owned.keeps (hchained.reads hr).spares, .inr ⟨rfl, hd⟩⟩
    obtain rfl : l[k + 1] = ncl := Option.some.inj (hnext.symm.trans hncl)
    have hb := hf.owned.mem _ (List.getElem_mem hidx)
    have hne1 : l[k + 1] ≠ 1 := fun h1 => absurd (h1 ▸ hb.1) (by decide)
    rw [if_neg (cluster_ne_diskError hg hb), if_neg hne1, if_pos hb.2, returns_onVol]
    have hread := hchained.reads hr
    have hchained' := hchained.turns hread
    have hcut := hchained'
    rw [heq] at hcut
    refine (removeChain_cuts hcut).imp ?_
    rintro res v' (⟨rfl, ht⟩ | ⟨rfl, hd, hs⟩)
    · rw [← heq] at ht
      have hturns := hread.trans ht
      have hpre : l = (l₁ ++ [h.fil.clust]) ++ l[k + 1] :: l₂ := by
        rw [List.append_assoc]
        exact heq
      have hlen' : (l₁ ++ [h.fil.clust]).length = k + 1 := by simp [hlen]
      have hbound := hbounds _ hlen'
      refine ⟨hf.owned.keeps hturns.spares, .inl ⟨rfl, l₁ ++ [h.fil.clust], l[k + 1] :: l₂, hpre,
        hturns, ?_, hbound.1, hbound.2, fun _ => ?_⟩⟩
      · rw [← hhead _ hlen' ⟨_, hpre⟩]
      · rw [← hlen]
        simp
    · rw [← heq] at hs
      have hkeeps := hf.owned.keeps hread.spares
      exact ⟨hkeeps.trans ((hf.owned.turns hread).keeps hs), .inr ⟨rfl, hd⟩⟩

/-- The object after `f_truncate` has given back clusters. -/
def Handle.cut (h : Handle σ) (v : Volume σ) (l' : List UInt32) : Handle σ :=
  { vol := v, fil := { h.fil with
      sclust := l'.headD 0, objsize := h.fil.fptr, faModified := true } }

/-- The file after its end has been cut off. Its buffer may be dirty only if it is one of a sector
that is left. -/
theorem Handle.Fits.cut {v : Volume σ} {r : List UInt32} (hf : h.Fits d P (l' ++ r))
    (ht : h.vol.Turns d v (l' ++ r) l') (hlt : h.fil.fptr.toNat < h.fil.objsize.toNat)
    (hsize : h.fil.fptr.toNat ≤ 512 * h.vol.fs.sectors l') {b : Bool}
    (hb : b = true → h.fil.faDirty = true ∧
      ∃ n < h.vol.fs.sectors l', h.fil.sect = h.vol.fs.fileSect l' n)
    (hb' : b = false → h.fil.faDirty = true → ∀ n < h.vol.fs.sectors l',
      h.fil.sect ≠ h.vol.fs.fileSect l' n) :
    Handle.Fits d P { h.cut v l' with fil := { (h.cut v l').fil with faDirty := b } } l' ∧
      ∀ p < h.fil.fptr.toNat,
        Handle.byte d { h.cut v l' with fil := { (h.cut v l').fil with faDirty := b } } l' p =
          h.byte d (l' ++ r) p := by
  have hgeom := ht.toAlters.geometry
  have hg := hf.owned.geometry
  have hin : ∀ p < h.fil.fptr.toNat, p / 512 < h.vol.fs.sectors l' := fun p hp => by omega
  have hsect : ∀ p < h.fil.fptr.toNat,
      h.vol.fs.fileSect (l' ++ r) (p / 512) = h.vol.fs.fileSect l' (p / 512) :=
    fun p hp => fileSect_append (hin p hp)
  have hview : ∀ p < h.fil.fptr.toNat, v.view d (h.vol.fs.fileSect l' (p / 512)) =
      h.vol.view d (h.vol.fs.fileSect l' (p / 512)) := by
    intro p hp
    refine ht.view _ (fileSect_not_inFat hg (fun c hc => hf.owned.mem c ?_) (hin p hp))
    exact List.mem_append_left _ hc
  refine ⟨⟨hf.owned.turns ht, rfl, ?_, le_rfl, fun hd => ?_, fun hd p hp hs => ?_⟩,
    fun p hp => ?_⟩
  · simp only [Handle.cut, hgeom]
    exact hsize
  · simp only [Handle.cut, hgeom]
    exact (hb hd).2
  · simp only [Handle.cut, hgeom] at hp hs ⊢
    have hclean : h.fil.faDirty = false := by
      by_contra hdirty
      exact hb' hd (by simpa using hdirty) _ (hin p hp) hs.symm
    have hold := hf.clean hclean p (by omega) (by rw [hsect p hp, hs])
    rw [hold, ← hs, hview p hp]
  · simp only [Handle.byte, Handle.cut, hgeom, hsect p hp, hview p hp]
    by_cases hs : h.vol.fs.fileSect l' (p / 512) = h.fil.sect
    · cases b with
      | true => rw [if_pos ⟨rfl, hs⟩, if_pos ⟨(hb rfl).1, hs⟩]
      | false =>
        rw [if_neg (by simp), if_neg]
        rintro ⟨hdirty, -⟩
        exact hb' rfl hdirty _ (hin p hp) hs.symm
    · rw [if_neg fun h => hs h.2, if_neg fun h => hs h.2]

/-- The end of the file has been cut off at the pointer, with all clusters behind it. -/
structure Handle.Cuts (d : Storage σ) (P : Set UInt32) (h h' : Handle σ) (l l' : List UInt32) :
    Prop extends Handle.Fits d P h' l' where
  keeps : h.vol.Keeps d P h'.vol
  relinks : h.vol.Relinks d h'.vol l l'
  pre : ∃ r, l = l' ++ r
  least : 512 * h.vol.fs.sectors l' < h.fil.fptr.toNat + 512 * h.vol.fs.csize.toNat
  at_ : h'.At l'
  byte : ∀ p < h.fil.fptr.toNat, h'.byte d l' p = h.byte d l p
  fil : h'.fil = { h.fil with
    sclust := h'.fil.sclust, objsize := h.fil.fptr, faModified := true,
    faDirty := h'.fil.faDirty }

/-- The write-back after the cut. The buffer may be one of a sector that has been given back. -/
theorem writeBack_cut {v : Volume σ} {r : List UInt32} (hf : h.Fits d P (l' ++ r))
    (hat : h.At (l' ++ r)) (ht : h.vol.Turns d v (l' ++ r) l')
    (hlt : h.fil.fptr.toNat < h.fil.objsize.toNat)
    (hsize : h.fil.fptr.toNat ≤ 512 * h.vol.fs.sectors l')
    (hleast : 512 * h.vol.fs.sectors l' < h.fil.fptr.toNat + 512 * h.vol.fs.csize.toNat)
    (hclust : 0 < h.fil.fptr.toNat →
      l'[(h.fil.fptr.toNat - 1) / 512 / h.vol.fs.csize.toNat]? = some h.fil.clust) :
    Returns (writeBack d) (h.cut v l') fun res h' =>
      h.vol.Keeps d P h'.vol ∧
        ((res = .frOk ∧ h.Cuts d P h' (l' ++ r) l') ∨ (res = .frDiskErr ∧ ¬ d.Reliable)) := by
  have hgeom := ht.toAlters.geometry
  have hk := hf.owned.keeps ht.spares
  have hrel := ht.toRelinks
  -- what the functions on the file know of its pointer is as before
  have hat' : ∀ (w : Volume σ) (f : Fil), w.fs.toFatGeometry = h.vol.fs.toFatGeometry →
      f.fptr = h.fil.fptr → f.clust = h.fil.clust → f.sect = h.fil.sect →
      Handle.At { vol := w, fil := f } l' := by
    intro w f hw hptr hcl hs
    refine ⟨fun hpos => ?_, fun hne => ?_⟩
    · simp only [hw, hptr, hcl] at hpos ⊢
      exact hclust hpos
    · simp only [hw, hptr, hs] at hne ⊢
      rw [hat.sect hne, fileSect_append (by omega)]
  by_cases hstay : h.fil.faDirty = true → ∃ n < h.vol.fs.sectors l',
      h.fil.sect = h.vol.fs.fileSect l' n
  · -- the sector of the buffer is one of the file still
    obtain ⟨hfits, hbyte⟩ := hf.cut (b := h.fil.faDirty) ht hlt hsize (fun hd => ⟨hd, hstay hd⟩)
      fun hc hd => absurd (hc.symm.trans hd) (by decide)
    refine (writeBack_returns hfits).imp ?_
    rintro res h' ⟨hs, hfs, ⟨rfl, hfil⟩ | ⟨rfl, hd, -⟩⟩
    swap
    · exact ⟨hk.trans hs.keeps, .inr ⟨rfl, hd⟩⟩
    refine ⟨hk.trans hs.keeps, .inl ⟨rfl, hs.toFits, hk.trans hs.keeps,
      hrel.trans hs.relinks, ⟨r, rfl⟩, hleast, ?_, fun p hp => ?_, by rw [hfil]; rfl⟩⟩
    · obtain ⟨w, f⟩ := h'
      refine hat' w f ?_ ?_ ?_ ?_
      · exact hs.fs.trans hgeom
      · rw [show f = _ from hfil]; rfl
      · rw [show f = _ from hfil]; rfl
      · rw [show f = _ from hfil]; rfl
    · have hin : p / 512 < v.fs.sectors l' := by
        rw [hgeom]
        omega
      rw [← hbyte p hp]
      exact hs.byte p hin
  · -- it has been given back
    obtain ⟨hdirty, hgone⟩ : h.fil.faDirty = true ∧
        ¬ ∃ n < h.vol.fs.sectors l', h.fil.sect = h.vol.fs.fileSect l' n := by
      push Not at hstay ⊢
      exact hstay
    obtain ⟨n, hn, hsect⟩ := hf.dirty hdirty
    have howned := hf.owned.turns ht
    have hother : ∀ n < h.vol.fs.sectors l', h.vol.fs.fileSect l' n ≠ h.fil.sect :=
      fun n hn heq => hgone ⟨n, hn, heq.symm⟩
    obtain ⟨hfits, hbyte⟩ := hf.cut (b := false) ht hlt hsize (fun hd => absurd hd (by decide))
      fun _ _ n hn => (hother n hn).symm
    have hin : ∀ i < 1, v.fs.InClusters Pᶜ (h.fil.sect + UInt32.ofNat i) := by
      intro i hi
      obtain rfl : i = 0 := by omega
      rw [hgeom, hsect, show UInt32.ofNat 0 = 0 from rfl, UInt32.add_zero]
      exact hf.owned.inClusters hn
    unfold writeBack
    rw [returns_bind, returns_getFil, if_pos (show (h.cut v l').fil.faDirty = true from hdirty),
      returns_bind, returns_onVol]
    refine (diskWrites_clusters howned.geometry howned.coherent howned.away (by decide) hin
      fun _ => h.fil.buf).imp ?_
    rintro status v' ⟨hk', hfs, hentry, hview, hr⟩
    refine Returns.ite (fun hok => ?_) fun hok => ⟨hk.trans hk', .inr ⟨rfl, ?_⟩⟩
    swap
    · exact (hr.resolve_left fun h => hok h.1).2
    have hlink : ∀ c, v'.link d c = v.link d c :=
      congrFun (Volume.link_of_entry (by rw [hfs]) hentry)
    have hview' : ∀ n < v.fs.sectors l', v'.view d (v.fs.fileSect l' n) =
        v.view d (v.fs.fileSect l' n) := by
      intro n hn
      refine hview _ fun i hi => ?_
      obtain rfl : i = 0 := by omega
      rw [hgeom] at hn ⊢
      exact (hother n hn).trans_eq (UInt32.add_zero _).symm
    obtain ⟨hfits', hbyte'⟩ := hfits.frame (Q := P) (congrArg FatFs.toFatGeometry hfs) hk'.coherent
      (fun c _ => hlink c) hview' howned.apart
      (fun c hc hcl => by rw [hlink]; exact howned.used c hc (hfs ▸ hcl))
      (by rw [hfs]; exact howned.away)
    have hrel' : v.Relinks d v' l' l' :=
      .of_entry howned.leads (congrArg FatFs.toFatGeometry hfs) hentry (by rw [hfs])
    rw [returns_bind, returns_modifyFil]
    refine ⟨hk.trans hk', .inl ⟨rfl, hfits', hk.trans hk', hrel.trans hrel', ⟨r, rfl⟩, hleast,
      hat' _ _ (by rw [hfs, hgeom]) rfl rfl rfl, fun p hp => ?_, rfl⟩⟩
    have hin' : p / 512 < v.fs.sectors l' := by
      rw [hgeom]
      omega
    rw [← hbyte p hp]
    exact hbyte' p hin'

/-- What `f_truncate` does : the file ends at the pointer, its bytes before it are the same, and
the clusters that it does not need any more are given back. -/
theorem fTruncate_returns (hf : h.Fits d P l) (hat : h.At l) :
    Returns (fTruncate d) h fun r h' =>
      (¬ (h.Ready d ∧ h.fil.faWrite = true) ∧ r = h.refusal d ∧ h' = h) ∨
        ((h.Ready d ∧ h.fil.faWrite = true) ∧
          ((r = .frOk ∧ h.fil.objsize = h.fil.fptr ∧ h' = h) ∨
            (r = .frOk ∧ h.fil.fptr < h.fil.objsize ∧ ∃ l', h.Cuts d P h' l l') ∨
            (r = .frDiskErr ∧ ¬ d.Reliable ∧ h.vol.Keeps d P h'.vol ∧ h'.fil.err = r))) := by
  unfold fTruncate
  refine Returns.bind (checkFile_returns hf.owned.geometry.mounted) ?_
  rintro res h₁ ⟨rfl, hres, hcode⟩
  refine Returns.ite (fun hbad => .inl ⟨fun h => hbad (hres.2 h.1), hcode hbad, rfl⟩)
    fun hok => ?_
  have hready := hres.1 (not_not.1 hok)
  rw [returns_bind, returns_getFil]
  refine Returns.ite (fun hmode => ?_) fun hmode =>
    .inl ⟨fun h => hmode h.2, hready.refusal.symm, rfl⟩
  refine Returns.ite (fun hshort => ?_) fun hend => ?_
  swap
  · refine .inr ⟨⟨hready, hmode⟩, .inl ⟨rfl, UInt32.toNat_inj.1 ?_, rfl⟩⟩
    have hpos := hf.pos
    rw [UInt32.lt_iff_toNat_lt] at hend
    omega
  have hlt := UInt32.lt_iff_toNat_lt.1 hshort
  refine Returns.bind (truncChain_returns hf hat hlt) ?_
  rintro r ⟨v, f⟩ ⟨hk, ⟨rfl, l', rest, rfl, ht, rfl, hsize, hleast, hclust⟩ | ⟨rfl, hd⟩⟩
  · rw [returns_bind, returns_modifyFil, if_pos rfl]
    refine Returns.bind (writeBack_cut (h := h₁) hf hat ht hlt hsize hleast hclust) ?_
    rintro r h₂ ⟨hk₂, ⟨rfl, hcuts⟩ | ⟨rfl, hd⟩⟩
    · refine orAbort_returns.imp ?_
      rintro r h₃ ⟨rfl, -, ⟨-, rfl⟩ | ⟨hbad, -⟩⟩
      · exact .inr ⟨⟨hready, hmode⟩, .inr (.inl ⟨rfl, hshort, l', hcuts⟩)⟩
      · exact absurd rfl hbad
    · refine orAbort_returns.imp ?_
      rintro r h₃ ⟨rfl, hvol, ⟨hbad, -⟩ | ⟨-, herr⟩⟩
      · exact absurd hbad (by decide)
      · exact .inr ⟨⟨hready, hmode⟩, .inr (.inr ⟨rfl, hd, by rwa [hvol], herr⟩)⟩
  · rw [returns_bind, returns_modifyFil, if_neg (by decide)]
    refine orAbort_returns.imp ?_
    rintro r h₃ ⟨rfl, hvol, ⟨hbad, -⟩ | ⟨-, herr⟩⟩
    · exact absurd hbad (by decide)
    · exact .inr ⟨⟨hready, hmode⟩, .inr (.inr ⟨rfl, hd, by rwa [hvol], herr⟩)⟩

end Whole

end Gd32Firmware
