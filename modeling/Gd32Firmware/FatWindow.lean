import Gd32Firmware.DiskIo
import Gd32Firmware.Machine
import Gd32Firmware.Returns
import Mathlib.Data.UInt

/-!
# The window of a FAT volume

The file system of `libraries/fatfs/ff.c` reads and writes its tables through one sector buffer,
`win`, which is written back when another sector is wanted (`move_window`) or on demand
(`sync_window`). It is configured without exFAT, with one sector size and for writing.

The drive below it is a `Storage` : any state with the functions of `diskio.c`, which may fail
at any call but keep to a contract. What a reader of the volume sees is `Volume.view` : the
medium, with the window over it while that is dirty. `syncWindow_returns` and
`moveWindow_returns` say that the two functions change nothing of it, whether the drive fails or
not, and `windowMachine_run` that over every run of accesses nothing is seen but what was written,
and that after a `sync` that reports success the medium holds it.
-/

namespace Gd32Firmware

open Program

/-! ## The drive -/

/-- A sector, or a buffer of its size (`FF_MIN_SS` and `FF_MAX_SS` are 512). -/
abbrev Sector := Fin 512 → UInt8

/-- A drive under the functions of `diskio.c`, with what its medium holds. The laws are its
contract, which is assumed : a read leaves the medium alone and, if it succeeds, delivers it; a
write touches only the sectors it names and, if it succeeds, they hold what was written. Of the
functions for the SD card that can only be expected for sectors that the argument of the data
command can name, with blocks of 512 bytes, and in transfers that hide no error. -/
structure Storage (σ : Type) where
  diskStatus : σ → UInt8
  diskInitialize : σ → UInt8 × σ
  /-- `disk_read` of so many sectors, with the buffer afterwards. -/
  diskRead : σ → UInt32 → ℕ → (DResult × (ℕ → Sector)) × σ
  /-- `disk_write` of so many sectors of a buffer. -/
  diskWrite : σ → UInt32 → ℕ → (ℕ → Sector) → DResult × σ
  /-- `disk_ioctl` with `CTRL_SYNC`. -/
  diskSync : σ → DResult × σ
  /-- What the medium holds. -/
  sector : σ → UInt32 → Sector
  sector_initialize : ∀ s, sector (diskInitialize s).2 = sector s
  sector_read : ∀ s lba n, sector (diskRead s lba n).2 = sector s
  read_ok : ∀ s lba n, (diskRead s lba n).1.1 = .resOk →
    ∀ i < n, (diskRead s lba n).1.2 i = sector s (lba + UInt32.ofNat i)
  sector_write : ∀ s lba n buff k, (∀ i < n, k ≠ lba + UInt32.ofNat i) →
    sector (diskWrite s lba n buff).2 k = sector s k
  write_ok : ∀ s lba n buff, (diskWrite s lba n buff).1 = .resOk → n < 2 ^ 32 →
    ∀ i < n, sector (diskWrite s lba n buff).2 (lba + UInt32.ofNat i) = buff i
  sector_sync : ∀ s, sector (diskSync s).2 = sector s

/-- No transfer of the drive fails. -/
structure Storage.Reliable {σ : Type} (d : Storage σ) : Prop where
  read : ∀ s lba n, (d.diskRead s lba n).1.1 = .resOk
  write : ∀ s lba n buff, (d.diskWrite s lba n buff).1 = .resOk
  sync : ∀ s, (d.diskSync s).1 = .resOk

/-- A drive that keeps its medium in memory. -/
def ramDisk : Storage (UInt32 → Sector) where
  diskStatus _ := 0
  diskInitialize medium := (0, medium)
  diskRead medium lba _ := ((.resOk, fun i => medium (lba + UInt32.ofNat i)), medium)
  diskWrite medium lba n buff :=
    (.resOk, fun s => if (s - lba).toNat < n then buff (s - lba).toNat else medium s)
  diskSync medium := (.resOk, medium)
  sector medium := medium
  sector_initialize _ := rfl
  sector_read _ _ _ := rfl
  read_ok _ _ _ _ _ _ := rfl
  sector_write medium lba n buff s hs := by
    refine if_neg fun hlt => hs _ hlt ?_
    rw [UInt32.ofNat_toNat]
    grind
  write_ok medium lba n buff _ hn i hi := by
    have hsub : lba + UInt32.ofNat i - lba = UInt32.ofNat i := by grind
    simp only [hsub, UInt32.toNat_ofNat_of_lt' (show i < UInt32.size by rw [UInt32.size]; omega),
      if_pos hi]
  sector_sync _ := rfl

theorem ramDisk_reliable : ramDisk.Reliable :=
  ⟨fun _ _ _ => rfl, fun _ _ _ _ => rfl, fun _ => rfl⟩

/-- The drive `d` with transfers that fail as a script says, before they do anything. -/
def Storage.scripted {σ : Type} (d : Storage σ) : Storage (List Bool × σ) where
  diskStatus s := d.diskStatus s.2
  diskInitialize s := ((d.diskInitialize s.2).1, s.1, (d.diskInitialize s.2).2)
  diskRead s lba n :=
    if s.1.headD true then ((d.diskRead s.2 lba n).1, s.1.tail, (d.diskRead s.2 lba n).2)
    else ((.resError, fun _ _ => 0), s.1.tail, s.2)
  diskWrite s lba n buff :=
    if s.1.headD true then
      ((d.diskWrite s.2 lba n buff).1, s.1.tail, (d.diskWrite s.2 lba n buff).2)
    else (.resError, s.1.tail, s.2)
  diskSync s := ((d.diskSync s.2).1, s.1, (d.diskSync s.2).2)
  sector s := d.sector s.2
  sector_initialize s := d.sector_initialize s.2
  sector_read s lba n := by
    split_ifs
    · exact d.sector_read s.2 lba n
    · rfl
  read_ok s lba n hok i hi := by
    split_ifs at hok ⊢
    exact d.read_ok s.2 lba n hok i hi
  sector_write s lba n buff k hk := by
    split_ifs
    · exact d.sector_write s.2 lba n buff k hk
    · rfl
  write_ok s lba n buff hok hn i hi := by
    split_ifs at hok ⊢
    exact d.write_ok s.2 lba n buff hok hn i hi
  sector_sync s := d.sector_sync s.2

/-! ## The file system object -/

/-- `FRESULT`. -/
inductive FResult where
  | frOk
  | frDiskErr
  | frIntErr
  | frNotReady
  | frNoFile
  | frNoPath
  | frInvalidName
  | frDenied
  | frExist
  | frInvalidObject
  | frWriteProtected
  | frInvalidDrive
  | frNotEnabled
  | frNoFilesystem
  | frMkfsAborted
  | frTimeout
  | frLocked
  | frNotEnoughCore
  | frTooManyOpenFiles
  | frInvalidParameter
  deriving DecidableEq

/-- `fs_type`. The type `blank` is that of an object that is not mounted. -/
inductive FsType where
  | blank
  | fat12
  | fat16
  | fat32
  deriving DecidableEq

/-- The fields of `FATFS` that mounting sets. -/
structure FatGeometry where
  fsType : FsType
  nFats : UInt8
  /-- Number of entries of the root directory (FAT12 and FAT16). -/
  nRootdir : UInt16
  /-- Sectors of a cluster. -/
  csize : UInt16
  /-- Number of FAT entries, two more than there are clusters. -/
  nFatent : UInt32
  /-- Sectors of a FAT. -/
  fsize : UInt32
  volbase : UInt32
  fatbase : UInt32
  /-- First sector of the root directory, on FAT32 its first cluster. -/
  dirbase : UInt32
  database : UInt32

/-- `FATFS`. -/
structure FatFs extends FatGeometry where
  /-- The window is dirty. -/
  wflag : Bool
  /-- Bit 7 : no FSInfo; bit 0 : the allocation has changed. -/
  fsiFlag : UInt8
  lastClst : UInt32
  freeClst : UInt32
  winsect : UInt32
  win : Sector

/-- The file system object and its drive. -/
structure Volume (σ : Type) where
  fs : FatFs
  disk : σ

/-- The number that says that the window holds no sector. -/
def noSector : UInt32 := 0xFFFFFFFF

variable {σ : Type} (d : Storage σ)

def Volume.setFs (v : Volume σ) (f : FatFs → FatFs) : Volume σ :=
  { v with fs := f v.fs }

def getFs : Program (Volume σ) FatFs := act fun v => (v.fs, v)

def modifyFs (f : FatFs → FatFs) : Program (Volume σ) Unit := act fun v => ((), v.setFs f)

def diskReads (lba : UInt32) (n : ℕ) : Program (Volume σ) (DResult × (ℕ → Sector)) :=
  act fun v => ((d.diskRead v.disk lba n).1, { v with disk := (d.diskRead v.disk lba n).2 })

def diskWrites (lba : UInt32) (n : ℕ) (buff : ℕ → Sector) : Program (Volume σ) DResult :=
  act fun v =>
    ((d.diskWrite v.disk lba n buff).1, { v with disk := (d.diskWrite v.disk lba n buff).2 })

def diskSyncs : Program (Volume σ) DResult :=
  act fun v => ((d.diskSync v.disk).1, { v with disk := (d.diskSync v.disk).2 })

/-! ## The window -/

def syncWindow : Program (Volume σ) FResult := do
  let fs ← getFs
  if fs.wflag then
    if (← diskWrites d fs.winsect 1 fun _ => fs.win) = .resOk then
      modifyFs fun fs => { fs with wflag := false }
      -- a sector of the first FAT is copied to the second; how that ends is not looked at
      if fs.winsect - fs.fatbase < fs.fsize ∧ fs.nFats = 2 then
        let _ ← diskWrites d (fs.winsect + fs.fsize) 1 fun _ => fs.win
        pure .frOk
      else pure .frOk
    else pure .frDiskErr
  else pure .frOk

def moveWindow (sect : UInt32) : Program (Volume σ) FResult := do
  if sect ≠ (← getFs).winsect then
    let res ← syncWindow d
    if res = .frOk then
      let (status, buff) ← diskReads d sect 1
      modifyFs fun fs => { fs with win := buff 0 }
      if status = .resOk then
        modifyFs fun fs => { fs with winsect := sect }
        pure .frOk
      else
        modifyFs fun fs => { fs with winsect := noSector }
        pure .frDiskErr
    else pure res
  else pure .frOk

/-! ## What is seen of a volume -/

/-- Sectors of the second FAT. -/
def FatGeometry.InSecondFat (g : FatGeometry) (s : UInt32) : Prop :=
  g.nFats = 2 ∧ s - g.fatbase - g.fsize < g.fsize

/-- Sectors that are written but, once the volume is mounted, never read : the second FAT and
the FSInfo sector of FAT32. -/
def FatGeometry.Hidden (g : FatGeometry) (s : UInt32) : Prop :=
  g.InSecondFat s ∨ (g.fsType = .fat32 ∧ s = g.volbase + 1)

/-- Sectors that are read. -/
def FatGeometry.Visible (g : FatGeometry) (s : UInt32) : Prop :=
  ¬ g.Hidden s ∧ s ≠ noSector

instance (g : FatGeometry) (s : UInt32) : Decidable (g.InSecondFat s) :=
  inferInstanceAs (Decidable (_ ∧ _))

instance (g : FatGeometry) (s : UInt32) : Decidable (g.Hidden s) :=
  inferInstanceAs (Decidable (_ ∨ _))

instance (g : FatGeometry) (s : UInt32) : Decidable (g.Visible s) :=
  inferInstanceAs (Decidable (_ ∧ _))

namespace Volume

/-- What a reader of the volume sees : the medium under a dirty window. Of the sectors that are
not read nothing is said. -/
def view (v : Volume σ) (s : UInt32) : Sector :=
  if v.fs.Visible s then
    if v.fs.wflag ∧ s = v.fs.winsect then v.fs.win else d.sector v.disk s
  else fun _ => 0

/-- A clean window holds its sector. -/
def Coherent (v : Volume σ) : Prop :=
  v.fs.wflag = false → v.fs.Visible v.fs.winsect → v.fs.win = d.sector v.disk v.fs.winsect

/-- From `v` to `v'` only the window has changed, and `image` is what is seen of `v'`. -/
structure Shows (v v' : Volume σ) (image : UInt32 → Sector) : Prop where
  fs : v'.fs = { v.fs with wflag := v'.fs.wflag, winsect := v'.fs.winsect, win := v'.fs.win }
  view : v'.view d = image
  coherent : v'.Coherent d

/-- The window of `v'` may be another one than that of `v`, nothing else is. -/
abbrev Same (v v' : Volume σ) : Prop :=
  Shows d v v' (v.view d)

variable {d} {v v' v'' : Volume σ} {s : UInt32} {image image' : UInt32 → Sector}

theorem Same.refl (h : v.Coherent d) : Same d v v :=
  ⟨rfl, rfl, h⟩

theorem Shows.trans (h : Shows d v v' image) (h' : Shows d v' v'' image') :
    Shows d v v'' image' :=
  ⟨by rw [h'.fs, h.fs], h'.view, h'.coherent⟩

theorem Shows.then_same (h : Shows d v v' image) (h' : Same d v' v'') : Shows d v v'' image :=
  ⟨by rw [h'.fs, h.fs], h'.view.trans h.view, h'.coherent⟩

theorem Shows.geometry (h : Shows d v v' image) : v'.fs.toFatGeometry = v.fs.toFatGeometry := by
  rw [h.fs]

theorem view_of_dirty (hw : v.fs.wflag = true) (hs : v.fs.Visible v.fs.winsect) :
    v.view d v.fs.winsect = v.fs.win := by
  simp [view, hs, hw]

theorem view_of_clean (hw : v.fs.wflag = false) (hs : v.fs.Visible s) :
    v.view d s = d.sector v.disk s := by
  simp [view, hs, hw]

/-- What is seen of a sector that is not in the window. -/
theorem view_of_ne (hs : v.fs.Visible s) (hne : s ≠ v.fs.winsect) :
    v.view d s = d.sector v.disk s := by
  simp [view, hs, hne]

/-- The window of a coherent volume shows what is seen of its sector. -/
theorem Coherent.win (h : v.Coherent d) (hs : v.fs.Visible v.fs.winsect) :
    v.fs.win = v.view d v.fs.winsect := by
  cases hw : v.fs.wflag with
  | false => rw [view_of_clean hw hs, h hw hs]
  | true => rw [view_of_dirty hw hs]

theorem view_congr (hg : v'.fs.toFatGeometry = v.fs.toFatGeometry)
    (h : ∀ s, v.fs.Visible s → v'.view d s = v.view d s) : v'.view d = v.view d := by
  funext s
  by_cases hs : v.fs.Visible s
  · exact h s hs
  · have hs' : ¬ v'.fs.Visible s := by rwa [hg]
    simp [view, hs, hs']

end Volume

/-! ## The two functions -/

section Steps

variable {d} {v : Volume σ}

@[simp] theorem returns_getFs {Q : FatFs → Volume σ → Prop} :
    Returns getFs v Q ↔ Q v.fs v :=
  Iff.rfl

@[simp] theorem returns_modifyFs {f : FatFs → FatFs} {Q : Unit → Volume σ → Prop} :
    Returns (modifyFs f) v Q ↔ Q () (v.setFs f) :=
  Iff.rfl

theorem returns_diskReads {lba : UInt32} {n : ℕ} {Q : DResult × (ℕ → Sector) → Volume σ → Prop} :
    Returns (diskReads d lba n) v Q ↔
      Q (d.diskRead v.disk lba n).1 { v with disk := (d.diskRead v.disk lba n).2 } :=
  Iff.rfl

theorem returns_diskWrites {lba : UInt32} {n : ℕ} {buff : ℕ → Sector}
    {Q : DResult → Volume σ → Prop} :
    Returns (diskWrites d lba n buff) v Q ↔
      Q (d.diskWrite v.disk lba n buff).1 { v with disk := (d.diskWrite v.disk lba n buff).2 } :=
  Iff.rfl

theorem Storage.sector_write_one (s : σ) {lba k : UInt32} (buff : ℕ → Sector) (hne : k ≠ lba) :
    d.sector (d.diskWrite s lba 1 buff).2 k = d.sector s k := by
  refine d.sector_write s lba 1 buff k fun i hi => ?_
  obtain rfl : i = 0 := by omega
  simpa using hne

theorem Storage.write_one_ok {s : σ} {lba : UInt32} {buff : ℕ → Sector}
    (h : (d.diskWrite s lba 1 buff).1 = .resOk) :
    d.sector (d.diskWrite s lba 1 buff).2 lba = buff 0 := by
  have hok := d.write_ok s lba 1 buff h (by decide) 0 (by decide)
  simpa using hok

theorem Storage.read_one_ok {s : σ} {lba : UInt32} (h : (d.diskRead s lba 1).1.1 = .resOk) :
    (d.diskRead s lba 1).1.2 0 = d.sector s lba := by
  have hok := d.read_ok s lba 1 h 0 (by decide)
  simpa using hok

/-- Where `sync_window` writes the copy of a sector of the first FAT. -/
theorem FatGeometry.inSecondFat_add {g : FatGeometry} {s : UInt32} (hn : g.nFats = 2)
    (hs : s - g.fatbase < g.fsize) : g.InSecondFat (s + g.fsize) := by
  have heq : s + g.fsize - g.fatbase - g.fsize = s - g.fatbase := by grind
  exact ⟨hn, by rwa [heq]⟩

theorem FatGeometry.Visible.ne_of_inSecondFat {g : FatGeometry} {s k : UInt32}
    (hs : g.Visible s) (hk : g.InSecondFat k) : s ≠ k := by
  rintro rfl
  exact hs.1 (Or.inl hk)

/-- What `sync_window` does : it changes nothing that is seen, and if it reports success the
window is clean. -/
theorem syncWindow_returns (hc : v.Coherent d) :
    Returns (syncWindow d) v fun r v' =>
      Volume.Same d v v' ∧ v'.fs.winsect = v.fs.winsect ∧ v'.fs.win = v.fs.win ∧
        ((r = .frOk ∧ v'.fs.wflag = false) ∨ (r = .frDiskErr ∧ ¬ d.Reliable)) := by
  unfold syncWindow
  rw [returns_bind, returns_getFs]
  refine Returns.ite (fun hw => ?_) fun hw =>
    ⟨.refl hc, rfl, rfl, .inl ⟨rfl, by simpa using hw⟩⟩
  rw [returns_bind, returns_diskWrites]
  set disk' := d.diskWrite v.disk v.fs.winsect 1 fun _ => v.fs.win
  have hne : ∀ s, s ≠ v.fs.winsect → d.sector disk'.2 s = d.sector v.disk s :=
    fun s hs => d.sector_write_one v.disk _ hs
  refine Returns.ite (fun hok => ?_) fun hok => ?_
  swap
  · -- the window stays dirty over a sector that may hold anything
    refine ⟨⟨rfl, Volume.view_congr rfl fun s hs => ?_, fun h => ?_⟩, rfl, rfl,
      .inr ⟨rfl, fun h => hok (h.write ..)⟩⟩
    · by_cases heq : s = v.fs.winsect
      · simp [Volume.view, hw, heq]
      · simp [Volume.view, heq, hne s heq]
    · simp [hw] at h
  have hwritten : d.sector disk'.2 v.fs.winsect = v.fs.win := d.write_one_ok hok
  have hclean : ∀ disk : σ, (∀ s, v.fs.Visible s → d.sector disk s = d.sector disk'.2 s) →
      Volume.Same d v ⟨{ v.fs with wflag := false }, disk⟩ := by
    intro disk hdisk
    have hwin : v.fs.Visible v.fs.winsect → d.sector disk v.fs.winsect = v.fs.win :=
      fun hvis => (hdisk _ hvis).trans hwritten
    refine ⟨rfl, Volume.view_congr rfl fun s hs => ?_, fun _ hvis => (hwin hvis).symm⟩
    have hseen : Volume.view d ⟨{ v.fs with wflag := false }, disk⟩ s = d.sector disk s :=
      Volume.view_of_clean rfl hs
    rw [hseen, hdisk s hs]
    by_cases heq : s = v.fs.winsect
    · rw [heq] at hs ⊢
      rw [hwritten, Volume.view_of_dirty hw hs]
    · rw [hne s heq, Volume.view_of_ne hs heq]
  rw [returns_bind, returns_modifyFs]
  refine Returns.ite (fun hfat => ?_) fun _ =>
    ⟨hclean _ fun _ _ => rfl, rfl, rfl, .inl ⟨rfl, rfl⟩⟩
  have hmirror := FatGeometry.inSecondFat_add hfat.2 hfat.1
  rw [returns_bind, returns_diskWrites]
  exact ⟨hclean _ fun s hs => d.sector_write_one disk'.2 _ (hs.ne_of_inSecondFat hmirror),
    rfl, rfl, .inl ⟨rfl, rfl⟩⟩

/-- What `move_window` does : it changes nothing that is seen, and if it reports success the
window shows the sector. -/
theorem moveWindow_returns (hc : v.Coherent d) (sect : UInt32) :
    Returns (moveWindow d sect) v fun r v' =>
      Volume.Same d v v' ∧
        ((r = .frOk ∧ v'.fs.winsect = sect ∧ (v.fs.Visible sect → v'.fs.win = v.view d sect)) ∨
          (r = .frDiskErr ∧ ¬ d.Reliable ∧
            (v'.fs.winsect = v.fs.winsect ∨ v'.fs.winsect = noSector))) := by
  unfold moveWindow
  rw [returns_bind, returns_getFs]
  refine Returns.ite (fun hmove => ?_) fun hstay => ?_
  swap
  · obtain rfl : sect = v.fs.winsect := by simpa using hstay
    exact ⟨.refl hc, .inl ⟨rfl, rfl, hc.win⟩⟩
  refine Returns.bind (syncWindow_returns hc) ?_
  rintro r v₁ ⟨hsame, hsect, -, ⟨rfl, hclean⟩ | ⟨rfl, hd⟩⟩
  swap
  · exact ⟨hsame, .inr ⟨rfl, hd, .inl hsect⟩⟩
  rw [if_pos rfl, returns_bind, returns_diskReads]
  set read := d.diskRead v₁.disk sect 1
  have hsector : d.sector read.2 = d.sector v₁.disk := d.sector_read ..
  have hview : ∀ winsect, Volume.view d
      ⟨{ v₁.fs with winsect := winsect, win := read.1.2 0 }, read.2⟩ = v.view d := by
    intro winsect
    rw [← hsame.view]
    refine Volume.view_congr rfl fun s hs => ?_
    rw [Volume.view_of_clean hclean hs, ← hsector]
    exact Volume.view_of_clean hclean hs
  have hfs : ∀ winsect, { v₁.fs with winsect := winsect, win := read.1.2 0 } =
      { v.fs with wflag := v₁.fs.wflag, winsect := winsect, win := read.1.2 0 } := by
    intro winsect
    rw [hsame.fs]
  rw [returns_bind, returns_modifyFs]
  refine Returns.ite (fun hok => ?_) fun hok => ?_
  · have hread : read.1.2 0 = d.sector v₁.disk sect := d.read_one_ok hok
    refine ⟨⟨hfs sect, hview sect, fun _ _ => ?_⟩, .inl ⟨rfl, rfl, fun hvis => ?_⟩⟩
    · exact hread.trans (congrFun hsector sect).symm
    · rw [← hsame.view, Volume.view_of_clean hclean (by rwa [hsame.geometry])]
      exact hread
  · exact ⟨⟨hfs noSector, hview noSector, fun _ hvis => absurd rfl hvis.2⟩,
      .inr ⟨rfl, fun h => hok (h.read ..), .inr rfl⟩⟩

/-- Write to the sector in the window. -/
def editWin (f : Sector → Sector) : Program (Volume σ) Unit :=
  modifyFs fun fs => { fs with win := f fs.win, wflag := true }

/-- What is written to the window is seen in its sector. -/
theorem editWin_returns {v' : Volume σ} (f : Sector → Sector) {image : UInt32 → Sector}
    (h : v.Shows d v' image) (hvis : v.fs.Visible v'.fs.winsect) :
    Returns (editWin f) v' fun _ v'' =>
      v.Shows d v'' (Function.update image v'.fs.winsect (f v'.fs.win)) ∧
        v''.fs.winsect = v'.fs.winsect ∧ v''.fs.win = f v'.fs.win := by
  have hvis' : v'.fs.Visible v'.fs.winsect := by rwa [h.geometry]
  refine ⟨⟨congrArg (fun fs : FatFs => { fs with win := f v'.fs.win, wflag := true }) h.fs, ?_,
    nofun⟩, rfl, rfl⟩
  funext s
  by_cases heq : s = v'.fs.winsect
  · rw [heq, Function.update_self]
    exact Volume.view_of_dirty rfl hvis'
  · rw [Function.update_of_ne heq, ← h.view]
    simp [Volume.view, Volume.setFs, heq]

end Steps

/-! ## Runs of accesses -/

/-- What the file system does to a sector of its tables. -/
inductive WindowOp where
  | read (sect : UInt32)
  | write (sect : UInt32) (i : Fin 512) (b : UInt8)
  | sync

/-- The sector of the operation is one that the mounted file system reads. -/
def FatGeometry.Allows (g : FatGeometry) : WindowOp → Prop
  | .read sect => g.Visible sect
  | .write sect _ _ => g.Visible sect
  | .sync => True

/-- Read or write a byte as all functions of `ff.c` do : move the window, then go on in `win`. -/
def windowOp : WindowOp → Program (Volume σ) (FResult × Sector)
  | .read sect => do
    let res ← moveWindow d sect
    pure (res, (← getFs).win)
  | .write sect i b => do
    let res ← moveWindow d sect
    if res = .frOk then
      editWin fun win => Function.update win i b
      pure (res, (← getFs).win)
    else pure (res, (← getFs).win)
  | .sync => do
    let res ← syncWindow d
    pure (res, (← getFs).win)

/-- One operation after the other, each with its result and the window it leaves. -/
def windowMachine : Machine (Volume σ) WindowOp (Option (FResult × Sector)) where
  step v op := ((exec (windowOp d op) v).2, (exec (windowOp d op) v).1)

/-- What an operation with this answer makes of what is seen. -/
def WindowOp.applied (image : UInt32 → Sector) (op : WindowOp)
    (answer : Option (FResult × Sector)) : UInt32 → Sector :=
  match op, answer with
  | .write sect i b, some (.frOk, _) =>
    Function.update image sect (Function.update (image sect) i b)
  | _, _ => image

/-- What is seen after a run : the writes that were reported as done, in their order. -/
def replay (image : UInt32 → Sector) (log : List (WindowOp × Option (FResult × Sector))) :
    UInt32 → Sector :=
  log.foldl (fun image entry => entry.1.applied image entry.2) image

section Runs

variable {d} {v : Volume σ}

/-- What one operation does : only a write that reports success changes what is seen, a read
that reports success delivers it, and a `sync` that does has brought it to the medium. -/
theorem windowOp_returns (hc : v.Coherent d) (op : WindowOp) (hop : v.fs.Allows op) :
    Returns (windowOp d op) v fun r v' =>
      v.Shows d v' (op.applied (v.view d) (some r)) ∧
        (∀ s, op = .read s → r.1 = .frOk → r.2 = v.view d s) ∧
        (op = .sync → r.1 = .frOk → ∀ s, v.fs.Visible s → d.sector v'.disk s = v.view d s) := by
  cases op with
  | read sect =>
    refine Returns.bind (moveWindow_returns hc sect) ?_
    rintro r v₁ ⟨hsame, hr⟩
    refine ⟨hsame, fun s hs hok => ?_, nofun⟩
    obtain rfl : sect = s := WindowOp.read.inj hs
    obtain ⟨-, -, hwin⟩ | ⟨rfl, -⟩ := hr
    · exact hwin hop
    · exact nomatch hok
  | write sect i b =>
    refine Returns.bind (moveWindow_returns hc sect) ?_
    rintro r v₁ ⟨hsame, ⟨rfl, rfl, hwin⟩ | ⟨rfl, -⟩⟩
    · refine Returns.bind (editWin_returns (fun win => Function.update win i b) hsame hop) ?_
      rintro - v₂ ⟨hshows, -, -⟩
      rw [hwin hop] at hshows
      exact ⟨hshows, nofun, nofun⟩
    · exact ⟨hsame, nofun, nofun⟩
  | sync =>
    refine Returns.bind (syncWindow_returns hc) ?_
    rintro r v₁ ⟨hsame, -, -, hr⟩
    refine ⟨hsame, nofun, fun _ hok s hs => ?_⟩
    obtain ⟨-, hclean⟩ | ⟨rfl, -⟩ := hr
    · rw [← hsame.view, Volume.view_of_clean hclean (by rwa [hsame.geometry])]
    · exact nomatch hok

theorem windowMachine_step (hc : v.Coherent d) (op : WindowOp) (hop : v.fs.Allows op) :
    ∃ r, ((windowMachine d).step v op).2 = some r ∧
      v.Shows d ((windowMachine d).step v op).1 (op.applied (v.view d) (some r)) ∧
        (∀ s, op = .read s → r.1 = .frOk → r.2 = v.view d s) ∧
        (op = .sync → r.1 = .frOk →
          ∀ s, v.fs.Visible s →
            d.sector ((windowMachine d).step v op).1.disk s = v.view d s) := by
  obtain ⟨r, v', heq, h⟩ := returns_iff.1 (windowOp_returns hc op hop)
  have hstep : (windowMachine d).step v op = (v', some r) := by simp [windowMachine, heq]
  rw [hstep]
  exact ⟨r, rfl, h⟩

theorem windowMachine_shows (ops : List WindowOp) (hc : v.Coherent d)
    (hops : ∀ op ∈ ops, v.fs.Allows op) :
    v.Shows d ((windowMachine d).run v ops)
      (replay (v.view d) (ops.zip ((windowMachine d).answers v ops))) := by
  induction ops generalizing v with
  | nil => exact Volume.Same.refl hc
  | cons op ops ih =>
    obtain ⟨r, hr, hshows, -⟩ := windowMachine_step hc op (hops op (by simp))
    have hrest := ih hshows.coherent fun op' hop' => by
      rw [hshows.geometry]
      exact hops op' (by simp [hop'])
    rw [hshows.view] at hrest
    simpa [replay, Machine.answers, hr] using hshows.trans hrest

/-- Whether the transfers of the drive succeed or fail, after every run of operations on sectors
that are read, what is seen is what was there with the writes that were reported as done. A read
that reports success delivers that, and a `sync` that does leaves it on the medium. -/
theorem windowMachine_run (ops : List WindowOp) (hc : v.Coherent d)
    (hops : ∀ op ∈ ops, v.fs.Allows op) {image : UInt32 → Sector}
    (himage : image = replay (v.view d) (ops.zip ((windowMachine d).answers v ops)))
    {s : UInt32} (hs : v.fs.Visible s) :
    ((windowMachine d).run v ops).view d s = image s ∧
      (∀ win, (windowMachine d).answer v ops (.read s) = some (.frOk, win) → win = image s) ∧
      (∀ win, (windowMachine d).answer v ops .sync = some (.frOk, win) →
        d.sector ((windowMachine d).run v (ops ++ [.sync])).disk s = image s) := by
  have hshows := windowMachine_shows ops hc hops
  rw [← himage] at hshows
  have hvis : ((windowMachine d).run v ops).fs.Visible s := by rwa [hshows.geometry]
  refine ⟨congrFun hshows.view s, fun win hread => ?_, fun win hsync => ?_⟩
  · obtain ⟨r, hr, -, hdelivers, -⟩ := windowMachine_step hshows.coherent (.read s) hvis
    obtain rfl : r = (.frOk, win) := Option.some.inj (hr.symm.trans hread)
    exact (hdelivers s rfl rfl).trans (congrFun hshows.view s)
  · obtain ⟨r, hr, -, -, hstored⟩ := windowMachine_step hshows.coherent .sync trivial
    obtain rfl : r = (.frOk, win) := Option.some.inj (hr.symm.trans hsync)
    rw [Machine.run_concat]
    exact (hstored rfl rfl s hvis).trans (congrFun hshows.view s)

end Runs

/-- A FAT12 volume with two clusters, of one sector each. -/
def sampleGeometry : FatGeometry where
  fsType := .fat12
  nFats := 1
  nRootdir := 16
  csize := 1
  nFatent := 4
  fsize := 1
  volbase := 0
  fatbase := 1
  dirbase := 2
  database := 3

/-- Its medium, with a file `A` of five bytes in the first cluster. -/
def sampleMedium (s : UInt32) : Sector :=
  if s = 1 then fun i => if i = 3 then 0xFF else if i = 4 then 0x0F else 0
  else if s = 2 then fun i =>
    if i = 0 then 0x41 else if i ≤ 11 then 0x20 else if i = 26 then 2 else if i = 28 then 5 else 0
  else fun i => UInt8.ofNat i.val

/-- The volume with the root directory in its window. -/
def sampleVolume : Volume (UInt32 → Sector) where
  fs := { sampleGeometry with
    wflag := false
    fsiFlag := 0x80
    lastClst := 2
    freeClst := 1
    winsect := 2
    win := sampleMedium 2 }
  disk := sampleMedium

theorem sampleVolume_coherent : sampleVolume.Coherent ramDisk :=
  fun _ _ => rfl

/-- The sample volume on a drive of which the second transfer fails. -/
def failingVolume : Volume (List Bool × (UInt32 → Sector)) where
  fs := sampleVolume.fs
  disk := ([true, false], sampleMedium)

theorem failingVolume_coherent : failingVolume.Coherent ramDisk.scripted :=
  fun _ _ => rfl

/-- A byte is put into the FAT, and only the second `sync` brings it to the medium. -/
theorem windowMachine_run_sample :
    ((windowMachine ramDisk.scripted).answers failingVolume [.write 1 5 7, .sync, .sync]).map
        (Option.map Prod.fst) = [some .frOk, some .frDiskErr, some .frOk] ∧
      ((windowMachine ramDisk.scripted).run failingVolume [.write 1 5 7, .sync]).view
        ramDisk.scripted 1 5 = 7 ∧
      (ramDisk.scripted).sector ((windowMachine ramDisk.scripted).run failingVolume
        [.write 1 5 7, .sync, .sync]).disk 1 5 = 7 := by
  obtain ⟨hview, -, hsync⟩ := windowMachine_run [.write 1 5 7, .sync] failingVolume_coherent
    (by simp [FatGeometry.Allows]; decide) rfl (show failingVolume.fs.Visible 1 by decide)
  refine ⟨by decide, ?_, ?_⟩
  · rw [hview]
    decide
  · have hstored := hsync _ rfl
    rw [List.cons_append, List.singleton_append] at hstored
    rw [hstored]
    decide

end Gd32Firmware
