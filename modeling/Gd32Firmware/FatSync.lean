import Gd32Firmware.FatWrite

/-!
# Bringing a file to the medium

`f_sync` and `f_close` of `libraries/fatfs/ff.c`. A file that has been changed is written back :
its buffer, the fields of its directory entry (`dirUpdate`), the window and, on FAT32, the FSInfo
sector (`sync_fs`).

`fSync_returns` : whether it succeeds or not, the bytes of the file and all other files are as
before; if it reports success for a file that was changed, the medium holds everything that is
seen of the volume, the directory entry with the file's first cluster and size included.
-/

namespace Gd32Firmware

open Program FatGeometry

variable {σ : Type}

/-! ## Directory entries -/

/-- `ld_clust`, the first cluster of the entry at `dir`. -/
def ldClust (t : FsType) (win : Sector) (dir : ℕ) : UInt32 :=
  let cl := (ldWord win (dir + 26)).toUInt32
  if t = .fat32 then cl ||| (ldWord win (dir + 20)).toUInt32 <<< 16 else cl

def stClust (t : FsType) (win : Sector) (dir : ℕ) (cl : UInt32) : Sector :=
  let win := stWord win (dir + 26) cl.toUInt16
  if t = .fat32 then stWord win (dir + 20) (cl >>> 16).toUInt16 else win

/-- `GET_FATTIME`, a fixed date as there is no clock. -/
def fattime : UInt32 :=
  (2024 - 1980 : UInt32) <<< 25 ||| (11 : UInt32) <<< 21 ||| (1 : UInt32) <<< 16

/-- What `f_sync` writes to the directory entry : the archive attribute, the first cluster, the
size and the times. -/
def dirUpdate (t : FsType) (f : Fil) (win : Sector) : Sector :=
  let dir := f.dirPtr
  let win := win.put (dir + 11) (win.at (dir + 11) ||| 0x20)
  let win := stClust t win dir f.sclust
  let win := stDword win (dir + 28) f.objsize
  let win := stDword win (dir + 22) fattime
  stWord win (dir + 18) 0

section Entries

variable {p : Sector} {i j : ℕ}

theorem Sector.at_put_self (p : Sector) (i : ℕ) (b : UInt8) : (p.put i b).at i = b := by
  simp [Sector.at, Sector.put]

theorem Sector.at_put_of_ne (b : UInt8) (hi : i < 512) (hj : j < 512) (hne : j ≠ i) :
    (p.put i b).at j = p.at j := by
  refine Function.update_of_ne (fun h => hne ?_) ..
  have hval := congrArg Fin.val h
  simpa [Nat.mod_eq_of_lt hi, Nat.mod_eq_of_lt hj] using hval

theorem stWord_at {val : UInt16} (hi : i + 2 ≤ 512) (hj : j < 512) (hne : j < i ∨ i + 2 ≤ j) :
    (stWord p i val).at j = p.at j := by
  unfold stWord
  rw [Sector.at_put_of_ne _ (by omega) hj (by omega),
    Sector.at_put_of_ne _ (by omega) hj (by omega)]

theorem stDword_at {val : UInt32} (hi : i + 4 ≤ 512) (hj : j < 512) (hne : j < i ∨ i + 4 ≤ j) :
    (stDword p i val).at j = p.at j := by
  unfold stDword
  rw [Sector.at_put_of_ne _ (by omega) hj (by omega),
    Sector.at_put_of_ne _ (by omega) hj (by omega),
    Sector.at_put_of_ne _ (by omega) hj (by omega),
    Sector.at_put_of_ne _ (by omega) hj (by omega)]

theorem ldWord_stWord {val : UInt16} (hi : i + 2 ≤ 512) : ldWord (stWord p i val) i = val := by
  unfold ldWord stWord
  rw [Sector.at_put_self, Sector.at_put_of_ne _ (by omega) (by omega) (by omega),
    Sector.at_put_self, joinWord_bytes]

theorem ldDword_stDword {val : UInt32} (hi : i + 4 ≤ 512) :
    ldDword (stDword p i val) i = val := by
  unfold ldDword stDword
  rw [Sector.at_put_self, Sector.at_put_of_ne _ (by omega) (by omega) (by omega),
    Sector.at_put_of_ne _ (by omega) (by omega) (by omega),
    Sector.at_put_of_ne _ (by omega) (by omega) (by omega), Sector.at_put_self,
    Sector.at_put_of_ne _ (by omega) (by omega) (by omega),
    Sector.at_put_of_ne _ (by omega) (by omega) (by omega), Sector.at_put_self,
    Sector.at_put_of_ne _ (by omega) (by omega) (by omega), Sector.at_put_self, joinDword_bytes]

theorem ldWord_congr {q : Sector} (h : ∀ j, i ≤ j → j < i + 2 → q.at j = p.at j) :
    ldWord q i = ldWord p i := by
  rw [ldWord, ldWord, h i (by omega) (by omega), h (i + 1) (by omega) (by omega)]

theorem ldDword_congr {q : Sector} (h : ∀ j, i ≤ j → j < i + 4 → q.at j = p.at j) :
    ldDword q i = ldDword p i := by
  rw [ldDword, ldDword, h i (by omega) (by omega), h (i + 1) (by omega) (by omega),
    h (i + 2) (by omega) (by omega), h (i + 3) (by omega) (by omega)]

/-- The two halves of a cluster number. -/
theorem join_halves (cl : UInt32) :
    cl.toUInt16.toUInt32 ||| (cl >>> 16).toUInt16.toUInt32 <<< 16 = cl := by
  have hcl := cl.toNat_lt
  have hlow : cl.toUInt16.toUInt32.toNat = cl.toNat % 2 ^ 16 := by simp
  have hhigh : ((cl >>> 16).toUInt16.toUInt32 <<< 16).toNat = cl.toNat / 2 ^ 16 * 2 ^ 16 := by
    simp only [UInt32.toNat_shiftLeft, UInt16.toNat_toUInt32, UInt32.toNat_toUInt16,
      UInt32.toNat_shiftRight, UInt32.reduceToNat, Nat.shiftRight_eq_div_pow,
      Nat.shiftLeft_eq, Nat.reduceMod, Nat.reducePow]
    omega
  apply UInt32.toNat_inj.1
  rw [UInt32.toNat_or, hlow, hhigh, Nat.or_comm, toNat_or_of_lt (Nat.mod_lt _ (by decide))]
  omega

/-- A cluster number is read back from the entry. On FAT12 and FAT16 the upper half is not
stored. -/
theorem ldClust_stClust {t : FsType} {cl : UInt32} (hi : i + 32 ≤ 512)
    (hcl : t ≠ .fat32 → cl.toNat < 2 ^ 16) : ldClust t (stClust t p i cl) i = cl := by
  unfold ldClust stClust
  by_cases ht : t = .fat32
  · simp only [if_pos ht]
    rw [ldWord_congr (p := stWord p (i + 26) cl.toUInt16)
      fun j _ _ => stWord_at (by omega) (by omega) (by omega), ldWord_stWord (by omega),
      ldWord_stWord (by omega), join_halves]
  · simp only [if_neg ht]
    rw [ldWord_stWord (by omega)]
    have hlt := hcl ht
    apply UInt32.toNat_inj.1
    simp only [UInt16.toNat_toUInt32, UInt32.toNat_toUInt16]
    omega

theorem stClust_at {t : FsType} {cl : UInt32} (hi : i + 32 ≤ 512) (hj : j < 512)
    (hne : j < i + 20 ∨ (i + 22 ≤ j ∧ j < i + 26) ∨ i + 28 ≤ j) :
    (stClust t p i cl).at j = p.at j := by
  unfold stClust
  by_cases ht : t = .fat32
  · simp only [if_pos ht]
    rw [stWord_at (by omega) hj (by omega), stWord_at (by omega) hj (by omega)]
  · simp only [if_neg ht]
    rw [stWord_at (by omega) hj (by omega)]

theorem ldClust_congr {t : FsType} {q : Sector}
    (h : ∀ j, i + 20 ≤ j → j < i + 22 ∨ (i + 26 ≤ j ∧ j < i + 28) → q.at j = p.at j) :
    ldClust t q i = ldClust t p i := by
  unfold ldClust
  rw [ldWord_congr fun j _ _ => h j (by omega) (by omega),
    ldWord_congr fun j _ _ => h j (by omega) (by omega)]

variable {t : FsType} {f : Fil}

/-- The first cluster in the entry that `f_sync` writes. -/
theorem dirUpdate_clust (hdir : f.dirPtr + 32 ≤ 512)
    (hcl : t ≠ .fat32 → f.sclust.toNat < 2 ^ 16) :
    ldClust t (dirUpdate t f p) f.dirPtr = f.sclust := by
  unfold dirUpdate
  rw [ldClust_congr fun j _ _ => stWord_at (by omega) (by omega) (by omega),
    ldClust_congr fun j _ _ => stDword_at (by omega) (by omega) (by omega),
    ldClust_congr fun j _ _ => stDword_at (by omega) (by omega) (by omega),
    ldClust_stClust hdir hcl]

/-- The size in it. -/
theorem dirUpdate_size (hdir : f.dirPtr + 32 ≤ 512) :
    ldDword (dirUpdate t f p) (f.dirPtr + 28) = f.objsize := by
  unfold dirUpdate
  rw [ldDword_congr fun j _ _ => stWord_at (by omega) (by omega) (by omega),
    ldDword_congr fun j _ _ => stDword_at (by omega) (by omega) (by omega),
    ldDword_stDword (by omega)]

/-- The name in the entry and all other entries of the sector are left alone. -/
theorem dirUpdate_at (hdir : f.dirPtr + 32 ≤ 512) (hj : j < 512)
    (hne : j < f.dirPtr + 11 ∨ f.dirPtr + 32 ≤ j) : (dirUpdate t f p).at j = p.at j := by
  unfold dirUpdate
  rw [stWord_at (by omega) hj (by omega), stDword_at (by omega) hj (by omega),
    stDword_at (by omega) hj (by omega), stClust_at hdir hj (by omega),
    Sector.at_put_of_ne _ (by omega) hj (by omega)]

end Entries

/-! ## The file system -/

/-- The FSInfo sector of FAT32. -/
def fsInfo (fs : FatFs) : Sector :=
  let win : Sector := fun _ => 0
  let win := stDword win 0 0x41615252
  let win := stDword win 484 0x61417272
  let win := stDword win 488 fs.freeClst
  let win := stDword win 492 fs.lastClst
  stDword win 498 0xAA550000

variable (d : Storage σ)

/-- The FSInfo sector is made in the window, and written. How that ends is not looked at. -/
def writeFsInfo : Program (Volume σ) Unit := do
  let fs ← getFs
  if fs.fsiFlag = 1 then
    modifyFs fun fs => { fs with fsiFlag := 0 }
    if fs.fsType = .fat32 then
      modifyFs fun fs => { fs with win := fsInfo fs, winsect := fs.volbase + 1 }
      let _ ← diskWrites d (fs.volbase + 1) 1 fun _ => fsInfo fs
      pure ()
    else pure ()
  else pure ()

def syncFs : Program (Volume σ) FResult := do
  let res ← syncWindow d
  if res = .frOk then
    writeFsInfo d
    if (← diskSyncs d) = .resOk then pure .frOk else pure .frDiskErr
  else pure res

/-! ## The functions -/

/-- The directory entry of a file that has been changed, and all that is in the window. -/
def syncEntry : Program (Handle σ) FResult := do
  let f ← getFil
  let res ← onVol (moveWindow d f.dirSect)
  if res = .frOk then
    let fs ← onVol getFs
    onVol (editWin (dirUpdate fs.fsType f))
    let res ← onVol (syncFs d)
    modifyFil fun f => { f with faModified := false }
    pure res
  else pure res

/-- `f_sync`. -/
def fSync : Program (Handle σ) FResult := do
  let res ← validate d
  if res = .frOk then
    let f ← getFil
    if f.faModified then
      let res ← writeBack d
      if res = .frOk then syncEntry d else pure res
    else pure .frOk
  else pure res

/-- `f_close`. -/
def fClose : Program (Handle σ) FResult := do
  let res ← fSync d
  if res = .frOk then
    let res ← validate d
    if res = .frOk then
      modifyFil fun f => { f with opened := false }
      pure .frOk
    else pure res
  else pure res

/-! ## What they do -/

section Steps

variable {d} {v v' : Volume σ}

/-- What `sync_fs` leaves of a volume : the window may be that of the FSInfo sector, and nothing
else that is seen has changed. -/
structure Volume.Flushes (d : Storage σ) (v v' : Volume σ) : Prop where
  geometry : v'.fs.toFatGeometry = v.fs.toFatGeometry
  freeClst : v'.fs.freeClst = v.fs.freeClst
  winsect : v'.fs.winsect = v.fs.winsect ∨
    (v.fs.fsType = .fat32 ∧ v'.fs.winsect = v.fs.volbase + 1)
  view : v'.view d = v.view d
  coherent : v'.Coherent d

theorem Volume.Same.flushes (h : v.Same d v') (hw : v'.fs.winsect = v.fs.winsect) :
    v.Flushes d v' :=
  ⟨h.geometry, by rw [h.fs], .inl hw, h.view, h.coherent⟩

/-- `sync_fs` brings all that is seen to the medium, or reports an error. -/
theorem writeFsInfo_returns (hc : v.Coherent d) (hclean : v.fs.wflag = false) :
    Returns (writeFsInfo d) v fun _ v' => v.Flushes d v' ∧ v'.fs.wflag = false := by
  unfold writeFsInfo
  rw [returns_bind, returns_getFs]
  refine Returns.ite (fun hflag => ?_) fun _ => ⟨⟨rfl, rfl, .inl rfl, rfl, hc⟩, hclean⟩
  rw [returns_bind, returns_modifyFs]
  refine Returns.ite (fun ht => ?_) fun _ => ⟨⟨rfl, rfl, .inl rfl, rfl, hc⟩, hclean⟩
  rw [returns_bind, returns_modifyFs, returns_bind, returns_diskWrites]
  have hhidden : ¬ v.fs.Visible (v.fs.volbase + 1) := fun h => h.1 (.inr ⟨ht, rfl⟩)
  refine ⟨⟨rfl, rfl, .inr ⟨ht, rfl⟩, Volume.view_congr rfl fun s hs => ?_,
    fun _ hvis => absurd hvis hhidden⟩, hclean⟩
  have hne : s ≠ v.fs.volbase + 1 := by
    rintro rfl
    exact hhidden hs
  rw [Volume.view_of_clean hclean hs, ← d.sector_write_one v.disk (fun _ => fsInfo v.fs) hne]
  exact Volume.view_of_clean hclean hs

theorem syncFs_returns (hc : v.Coherent d) :
    Returns (syncFs d) v fun r v' => v.Flushes d v' ∧
      ((r = .frOk ∧ ∀ s, v.fs.Visible s → d.sector v'.disk s = v.view d s) ∨
        (r = .frDiskErr ∧ ¬ d.Reliable)) := by
  unfold syncFs
  refine Returns.bind (syncWindow_returns hc) ?_
  rintro r v₁ ⟨hsame, hw, -, ⟨rfl, hclean⟩ | ⟨rfl, hd⟩⟩
  swap
  · exact ⟨hsame.flushes hw, .inr ⟨rfl, hd⟩⟩
  rw [if_pos rfl]
  refine Returns.bind (writeFsInfo_returns hsame.coherent hclean) ?_
  rintro - v₂ ⟨hf, hclean'⟩
  have hflush : v.Flushes d { v₂ with disk := (d.diskSync v₂.disk).2 } := by
    have hview : Volume.view d { v₂ with disk := (d.diskSync v₂.disk).2 } = v₂.view d := by
      unfold Volume.view
      rw [d.sector_sync]
    refine ⟨hf.geometry.trans hsame.geometry, ?_, ?_, hview.trans (hf.view.trans hsame.view), ?_⟩
    · rw [hf.freeClst, hsame.fs]
    · rw [← hw]
      have hwinsect := hf.winsect
      rwa [hsame.geometry] at hwinsect
    · intro h hvis
      rw [d.sector_sync]
      exact hf.coherent h hvis
  rw [returns_bind]
  refine Returns.ite (fun hok => ⟨hflush, .inl ⟨rfl, fun s hs => ?_⟩⟩) fun hok =>
    ⟨hflush, .inr ⟨rfl, fun hd => hok (hd.sync _)⟩⟩
  rw [← hflush.view]
  have hvis : v₂.fs.Visible s := by rwa [hf.geometry, hsame.geometry]
  have hseen : Volume.view d { v₂ with disk := (d.diskSync v₂.disk).2 } s =
      d.sector (d.diskSync v₂.disk).2 s := Volume.view_of_clean hclean' hvis
  exact hseen.symm

end Steps

section Whole

variable {d} {P : Set UInt32} {h h' : Handle σ} {l : List UInt32}

/-- The directory entry of a file is in a sector that is read and is no sector of the FAT nor of
a cluster outside `P`. -/
structure Handle.InDir (P : Set UInt32) (h : Handle σ) : Prop where
  visible : h.vol.fs.Visible h.fil.dirSect
  notInFat : ¬ h.vol.fs.InFat h.fil.dirSect
  apart : ¬ h.vol.fs.InClusters Pᶜ h.fil.dirSect
  room : h.fil.dirPtr + 32 ≤ 512

/-- What `f_sync` leaves, whether it succeeds or not : the file and its bytes, all entries of the
FAT, and what is seen of the volume outside the clusters that are not in `P`, but for the
directory entry. -/
structure Handle.Saves (d : Storage σ) (P : Set UInt32) (h h' : Handle σ) (l : List UInt32) :
    Prop extends Handle.Fits d P h' l where
  byte : ∀ p, p / 512 < h.vol.fs.sectors l → h'.byte d l p = h.byte d l p
  relinks : h.vol.Relinks d h'.vol l l
  view : ∀ s, s ≠ h.fil.dirSect → ¬ h.vol.fs.InFat s → ¬ h.vol.fs.InClusters Pᶜ s →
    h'.vol.view d s = h.vol.view d s
  winsect : h.vol.fs.Moves h.vol.fs.winsect h'.vol.fs.winsect ∨
    h'.vol.fs.winsect = h.fil.dirSect ∨
      (h.vol.fs.fsType = .fat32 ∧ h'.vol.fs.winsect = h.vol.fs.volbase + 1)
  fil : h'.fil = { h.fil with faModified := h'.fil.faModified, faDirty := h'.fil.faDirty }

/-- The FSInfo sector is in no cluster. -/
theorem FatGeometry.WellFormed.fsInfo_apart {g : FatGeometry} (hg : g.WellFormed)
    (ht : g.fsType = .fat32) {C : Set UInt32} : ¬ g.InClusters C (g.volbase + 1) := by
  rintro ⟨c, -, k, hc, hk, heq⟩
  have hres := hg.reserved
  rw [if_pos ht] at hres
  have hlow := (data_bounds hg hc hk).1
  have hfats := hg.fats_le.1
  have hf := g.fatbase.toNat_lt
  have hnat : (g.volbase + 1).toNat = g.volbase.toNat + 1 := by
    rw [UInt32.toNat_add, UInt32.toNat_one]
    exact Nat.mod_eq_of_lt (by omega)
  rw [← heq, hnat] at hlow
  omega

theorem Handle.Grows.saves (hs : h.Still d P h' l)
    (hfil : h'.fil = { h.fil with faDirty := h'.fil.faDirty }) : h.Saves d P h' l :=
  ⟨hs.toFits, hs.byte, hs.relinks, fun s _ hfat hin => hs.keeps.view s hfat hin,
    .inl hs.keeps.moves, by rw [hfil]⟩

/-- A change of the volume in the sector of the directory entry only. -/
theorem Handle.Fits.saves {v : Volume σ} (hf : h.Fits d P l) (hdir : h.InDir P)
    (hgeom : v.fs.toFatGeometry = h.vol.fs.toFatGeometry)
    (hfree : v.fs.freeClst = h.vol.fs.freeClst) (hc : v.Coherent d)
    (hview : ∀ s, s ≠ h.fil.dirSect → v.view d s = h.vol.view d s)
    (hwin : h.vol.fs.Moves h.vol.fs.winsect v.fs.winsect ∨ v.fs.winsect = h.fil.dirSect ∨
      (h.vol.fs.fsType = .fat32 ∧ v.fs.winsect = h.vol.fs.volbase + 1)) (b : Bool) :
    h.Saves d P { vol := v, fil := { h.fil with faModified := b } } l := by
  have hg := hf.owned.geometry
  have hentry : v.entry d = h.vol.entry d := by
    refine Volume.entry_congr hg hgeom fun s hs => hview s ?_
    rintro rfl
    exact hdir.notInFat hs
  have hlink : ∀ c, v.link d c = h.vol.link d c :=
    congrFun (Volume.link_of_entry hgeom hentry)
  have haway : ¬ v.fs.InClusters Pᶜ v.fs.winsect := by
    rw [hgeom]
    obtain hw | hw | ⟨ht, hw⟩ := hwin
    · exact hw.not_inClusters hg hf.owned.away
    · rw [hw]
      exact hdir.apart
    · rw [hw]
      exact hg.fsInfo_apart ht
  have hused : ∀ c ∈ P, v.fs.IsCluster c → v.link d c ≠ .free := by
    intro c hc hcl
    rw [hlink]
    rw [hgeom] at hcl
    exact hf.owned.used c hc hcl
  obtain ⟨hfits, hbyte⟩ := hf.frame hgeom hc (fun c _ => hlink c)
    (fun n hn => hview _ fun heq => hdir.apart (heq ▸ hf.owned.inClusters hn))
    hf.owned.apart hused haway
  exact ⟨⟨hfits.owned, hfits.start, hfits.size, hfits.pos, hfits.dirty, hfits.clean⟩, hbyte,
    .of_entry hf.owned.leads hgeom hentry hfree, fun s hs _ _ => hview s hs, hwin, rfl⟩

/-- The directory entry and the file system are written. -/
theorem syncEntry_returns (hf : h.Fits d P l) (hdir : h.InDir P) :
    Returns (syncEntry d) h fun r h' =>
      h.Saves d P h' l ∧ h'.fil.faDirty = h.fil.faDirty ∧
        ((r = .frOk ∧ h'.fil.faModified = false ∧
            (∀ s, h.vol.fs.Visible s → d.sector h'.vol.disk s = h'.vol.view d s) ∧
            h'.vol.view d h.fil.dirSect =
              dirUpdate h.vol.fs.fsType h.fil (h.vol.view d h.fil.dirSect)) ∨
          (r = .frDiskErr ∧ ¬ d.Reliable)) := by
  unfold syncEntry
  rw [returns_bind, returns_getFil, returns_bind, returns_onVol]
  refine (moveWindow_returns hf.owned.coherent h.fil.dirSect).imp ?_
  rintro r v₁ ⟨hsame, ⟨rfl, hw, hwin⟩ | ⟨rfl, hd, hw⟩⟩
  swap
  · refine ⟨hf.saves hdir hsame.geometry (by rw [hsame.fs]) hsame.coherent
      (fun s _ => congrFun hsame.view s) (.inl (hw.imp id .inl)) h.fil.faModified, rfl,
      .inr ⟨rfl, hd⟩⟩
  rw [if_pos rfl, returns_bind, returns_onVol, returns_getFs, returns_bind, returns_onVol]
  refine (editWin_returns (dirUpdate v₁.fs.fsType h.fil) hsame
    (by rw [hw]; exact hdir.visible)).imp ?_
  rintro - v₂ ⟨hshows, hw', -⟩
  have ht : v₁.fs.fsType = h.vol.fs.fsType := congrArg FatGeometry.fsType hsame.geometry
  rw [hw, hwin hdir.visible, ht] at hshows
  rw [returns_bind, returns_onVol]
  refine (syncFs_returns hshows.coherent).imp ?_
  rintro r v₃ ⟨hflush, hr⟩
  rw [returns_bind, returns_modifyFil]
  have hview : v₃.view d = Function.update (h.vol.view d) h.fil.dirSect
      (dirUpdate h.vol.fs.fsType h.fil (h.vol.view d h.fil.dirSect)) :=
    hflush.view.trans hshows.view
  have hwinsect := hflush.winsect
  rw [hw', hw, hshows.geometry] at hwinsect
  refine ⟨hf.saves hdir (hflush.geometry.trans hshows.geometry) ?_ hflush.coherent
    (fun s hs => ?_) (.inr hwinsect) false, rfl, hr.imp ?_ id⟩
  · rw [hflush.freeClst, hshows.fs]
  · rw [hview, Function.update_of_ne hs]
  · rintro ⟨rfl, hstored⟩
    refine ⟨rfl, rfl, fun s hs => ?_, ?_⟩
    · rw [hflush.view]
      exact hstored s (by rwa [hshows.geometry])
    · rw [hview, Function.update_self]

/-- What is done after the buffer has been written back. -/
theorem Handle.Grows.then_saves {h'' : Handle σ} (hs : h.Still d P h' l)
    (hfil : h'.fil = { h.fil with faDirty := h'.fil.faDirty }) (hs' : h'.Saves d P h'' l) :
    h.Saves d P h'' l := by
  have hsect : h'.fil.dirSect = h.fil.dirSect := by rw [hfil]
  refine ⟨hs'.toFits, fun p hp => ?_, hs.relinks.trans hs'.relinks, fun s hne hfat hin => ?_, ?_,
    by rw [hs'.fil, hfil]⟩
  · rw [hs'.byte p (by rwa [hs.fs]), hs.byte p hp]
  · rw [hs'.view s (by rwa [hsect]) (by rwa [hs.fs]) (by rwa [hs.fs]),
      hs.keeps.view s hfat hin]
  · have hw := hs'.winsect
    rw [hs.fs, hsect] at hw
    exact hw.imp_left fun hw => hs.keeps.moves.trans hw

theorem Handle.Saves.refl (hf : h.Fits d P l) : h.Saves d P h l :=
  (Handle.Grows.refl hf).saves rfl

/-- The object is open, and the drive is ready. -/
def Handle.Valid (d : Storage σ) (h : Handle σ) : Prop :=
  h.fil.opened = true ∧ d.diskStatus h.vol.disk &&& staNoinit = 0

theorem validate_returns (hmounted : h.vol.fs.fsType ≠ .blank) :
    Returns (validate d) h fun r h' => h' = h ∧
      ((r = .frOk ∧ h.Valid d) ∨ (r = .frInvalidObject ∧ ¬ h.Valid d)) := by
  unfold validate
  rw [returns_act]
  by_cases hv : h.Valid d
  · exact ⟨rfl, .inl ⟨if_pos ⟨hv.1, hmounted, hv.2⟩, hv⟩⟩
  · exact ⟨rfl, .inr ⟨if_neg fun hall => hv ⟨hall.1, hall.2.2⟩, hv⟩⟩

/-- All that is seen of the volume is on the medium, with the first cluster and the size of the
file in its directory entry, and the buffer of the file is not dirty. -/
structure Handle.Stored (d : Storage σ) (h : Handle σ) : Prop where
  medium : ∀ s, h.vol.fs.Visible s → d.sector h.vol.disk s = h.vol.view d s
  clust : ldClust h.vol.fs.fsType (h.vol.view d h.fil.dirSect) h.fil.dirPtr = h.fil.sclust
  size : ldDword (h.vol.view d h.fil.dirSect) (h.fil.dirPtr + 28) = h.fil.objsize
  clean : h.fil.faDirty = false

/-- The number of a first cluster is stored in full. -/
theorem Handle.Fits.sclust_lt (hf : h.Fits d P l) (ht : h.vol.fs.fsType ≠ .fat32) :
    h.fil.sclust.toNat < 2 ^ 16 := by
  rw [hf.start]
  cases l with
  | nil => simp
  | cons a l =>
    have ha := isCluster_toNat.1 (hf.owned.mem a (by simp))
    have hmax := hf.owned.geometry.maxEntries
    cases htype : h.vol.fs.fsType <;> rw [htype] at hmax <;>
      simp only [FsType.maxEntries] at hmax <;> simp only [List.headD_cons] <;> first
      | omega
      | exact absurd htype ht

/-- What `f_sync` does : the bytes of the file, and what is seen elsewhere, are as before whether
it succeeds or not. If it succeeds for a file that has been changed, the medium holds all of
it. -/
theorem fSync_returns (hf : h.Fits d P l) (hdir : h.InDir P) :
    Returns (fSync d) h fun r h' =>
      h.Saves d P h' l ∧
        ((r = .frInvalidObject ∧ ¬ h.Valid d ∧ h' = h) ∨
          (r = .frOk ∧ h.Valid d ∧ h.fil.faModified = false ∧ h' = h) ∨
          (r = .frOk ∧ h.Valid d ∧ h.fil.faModified = true ∧ h'.fil.faModified = false ∧
            h'.Stored d) ∨
          (r = .frDiskErr ∧ ¬ d.Reliable)) := by
  unfold fSync
  refine Returns.bind (validate_returns hf.owned.geometry.mounted) ?_
  rintro r h₁ ⟨rfl, ⟨rfl, hvalid⟩ | ⟨rfl, hvalid⟩⟩
  swap
  · exact ⟨.refl hf, .inl ⟨rfl, hvalid, rfl⟩⟩
  rw [if_pos rfl, returns_bind, returns_getFil]
  refine Returns.ite (fun hmod => ?_) fun hmod =>
    ⟨.refl hf, .inr (.inl ⟨rfl, hvalid, by simpa using hmod, rfl⟩)⟩
  refine Returns.bind (writeBack_returns hf) ?_
  rintro r h₂ ⟨hs, -, ⟨rfl, hfil⟩ | ⟨rfl, hd, hfil⟩⟩
  swap
  · exact ⟨hs.saves (by rw [hfil]), .inr (.inr (.inr ⟨rfl, hd⟩))⟩
  have hfil' : h₂.fil = { h₁.fil with faDirty := h₂.fil.faDirty } := by rw [hfil]
  have hsect : h₂.fil.dirSect = h₁.fil.dirSect := by rw [hfil]
  have hptr : h₂.fil.dirPtr = h₁.fil.dirPtr := by rw [hfil]
  have hdir₂ : h₂.InDir P := by
    refine ⟨?_, ?_, ?_, ?_⟩
    · rw [hs.fs, hsect]
      exact hdir.visible
    · rw [hs.fs, hsect]
      exact hdir.notInFat
    · rw [hs.fs, hsect]
      exact hdir.apart
    · rw [hptr]
      exact hdir.room
  rw [if_pos rfl]
  refine (syncEntry_returns hs.toFits hdir₂).imp ?_
  rintro r h₃ ⟨hsaves, hdirty, ⟨rfl, hmod', hmedium, hentry⟩ | ⟨rfl, hd⟩⟩
  swap
  · exact ⟨hs.then_saves hfil' hsaves, .inr (.inr (.inr ⟨rfl, hd⟩))⟩
  have hgeom := hsaves.relinks.geometry
  have ht : h₃.vol.fs.fsType = h₂.vol.fs.fsType := congrArg FatGeometry.fsType hgeom
  have hfil₃ := hsaves.fil
  have hsect₃ : h₃.fil.dirSect = h₂.fil.dirSect := by rw [hfil₃]
  have hptr₃ : h₃.fil.dirPtr = h₂.fil.dirPtr := by rw [hfil₃]
  refine ⟨hs.then_saves hfil' hsaves, .inr (.inr (.inl ⟨rfl, hvalid, hmod, hmod', ?_⟩))⟩
  refine ⟨fun s hvis => hmedium s (by rwa [← hgeom]), ?_, ?_, ?_⟩
  · rw [hsect₃, hptr₃, ht, hentry, dirUpdate_clust hdir₂.room hs.toFits.sclust_lt, hfil₃]
  · rw [hsect₃, hptr₃, hentry, dirUpdate_size hdir₂.room, hfil₃]
  · rw [hdirty, hfil]

/-- What `f_close` does : as `f_sync`, and if it succeeds the object is not valid any more. It
fails as `f_sync` does, or where the drive is no longer ready after it. -/
theorem fClose_returns (hf : h.Fits d P l) (hdir : h.InDir P) :
    Returns (fClose d) h fun r h' => ∃ h₁, h.Saves d P h₁ l ∧
      ((r = .frOk ∧ h' = { h₁ with fil := { h₁.fil with opened := false } } ∧ h.Valid d ∧
          (h.fil.faModified = false ∨ h₁.Stored d)) ∨
        (r = .frInvalidObject ∧ ¬ h.Valid d ∧ h' = h) ∨ (r = .frDiskErr ∧ ¬ d.Reliable ∧ h' = h₁) ∨
        (r = .frInvalidObject ∧ h.Valid d ∧ ¬ h₁.Valid d ∧ h' = h₁)) := by
  unfold fClose
  refine Returns.bind (fSync_returns hf hdir) ?_
  rintro r h₁ ⟨hs, hr⟩
  refine Returns.ite (fun hok => ?_) fun hbad => ⟨h₁, hs, ?_⟩
  swap
  · obtain ⟨rfl, hinv, rfl⟩ | ⟨rfl, -⟩ | ⟨rfl, -⟩ | ⟨rfl, hd⟩ := hr
    · exact .inr (.inl ⟨rfl, hinv, rfl⟩)
    · exact absurd rfl hbad
    · exact absurd rfl hbad
    · exact .inr (.inr (.inl ⟨rfl, hd, rfl⟩))
  have hdone : h.Valid d ∧ (h.fil.faModified = false ∨ h₁.Stored d) := by
    obtain ⟨rfl, -⟩ | ⟨-, hv, hmod, -⟩ | ⟨-, hv, -, -, hstored⟩ | ⟨rfl, -⟩ := hr
    · exact absurd hok (by decide)
    · exact ⟨hv, .inl hmod⟩
    · exact ⟨hv, .inr hstored⟩
    · exact absurd hok (by decide)
  refine Returns.bind (validate_returns hs.owned.geometry.mounted) ?_
  rintro r' h₂ ⟨rfl, ⟨rfl, -⟩ | ⟨rfl, hlost⟩⟩
  · exact ⟨_, hs, .inl ⟨rfl, rfl, hdone⟩⟩
  · exact ⟨_, hs, .inr (.inr (.inr ⟨rfl, hdone.1, hlost, rfl⟩))⟩

end Whole

end Gd32Firmware
