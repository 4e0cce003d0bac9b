import Gd32Firmware.FatSeek

/-!
# The open files of a volume

A `File` is what the functions on an open file mean to their caller : bytes and a pointer in
them. `FileStep` says what each call does to it, and `FileSys` is a volume with any number of
open file objects over it, on which any calls are made in any order.

`fileMachine_run` : with every drive that keeps to its contract, every run of calls answers as the
files say, each call for its own file; a file is given up only by a call that reports an error of
the drive, and the other files stay as they are. As long as no call has reported an error, a write
is short only if there is no free cluster left.
-/

namespace Gd32Firmware

open Program FatGeometry

/-! ## Files -/

/-- The bytes of a file, with a pointer between them, and what the file has been opened for. -/
structure File where
  data : List UInt8
  pos : ℕ
  canRead : Bool
  canWrite : Bool
  pos_le : pos ≤ data.length

namespace File

/-- The bytes that a call for `n` of them delivers. -/
def next (f : File) (n : ℕ) : List UInt8 :=
  (f.data.drop f.pos).take n

/-- The pointer is set to `n`, or to the end. -/
def seek (f : File) (n : ℕ) : File :=
  { f with pos := min n f.data.length, pos_le := min_le_right .. }

/-- Bytes are put over those at the pointer, and behind the end. -/
def put (f : File) (bytes : List UInt8) : File :=
  { f with
    data := f.data.take f.pos ++ bytes ++ f.data.drop (f.pos + bytes.length)
    pos := f.pos + bytes.length
    pos_le := by
      have hle := f.pos_le
      simp only [List.length_append, List.length_take, List.length_drop]
      omega }

/-- What is behind the pointer is cut off. -/
def cut (f : File) : File :=
  { f with
    data := f.data.take f.pos
    pos_le := by
      have hle := f.pos_le
      rw [List.length_take]
      omega }

end File

/-- A call for a file. -/
inductive FileOp where
  | read (btr : UInt32)
  | write (data : List UInt8)
  | seek (ofs : UInt32)
  | truncate
  | sync
  | close

/-- What it answers. -/
inductive FileAnswer where
  | read (res : FResult) (data : List UInt8)
  | write (res : FResult) (bw : UInt32)
  | done (res : FResult)
  deriving DecidableEq

def FileAnswer.res : FileAnswer → FResult
  | .read res _ => res
  | .write res _ => res
  | .done res => res

/-- The call reports an error of the drive, or of what the drive has made of the FAT. -/
def FileAnswer.Failed (answer : FileAnswer) : Prop :=
  answer.res = .frDiskErr ∨ answer.res = .frIntErr

/-- The answer of a call that is refused. -/
def FileOp.refuse (op : FileOp) (res : FResult) : FileAnswer :=
  match op with
  | .read _ => .read res []
  | .write _ => .write res 0
  | _ => .done res

/-- What the file has been opened for. -/
def File.Permits (f : File) : FileOp → Prop
  | .read _ => f.canRead = true
  | .write _ => f.canWrite = true
  | .truncate => f.canWrite = true
  | _ => True

/-- What a call with this answer makes of a file, or that the file is given up. `ready` says that
the drive is ready before the call, `ready'` that it is ready after it, `full` that there is no
free cluster after it, and `faulty` that the drive may fail. -/
inductive FileStep (ready ready' full faulty : Prop) :
    File → FileOp → FileAnswer → Option File → Prop where
  | read {f : File} {btr : UInt32} (hready : ready) (hmode : f.canRead = true) :
      FileStep ready ready' full faulty f (.read btr) (.read .frOk (f.next btr.toNat))
        (some (f.seek (f.pos + btr.toNat)))
  | write {f : File} {data : List UInt8} {bw : UInt32} (hready : ready)
      (hmode : f.canWrite = true) (hle : bw.toNat ≤ min data.length (2 ^ 32 - 1 - f.pos))
      (hshort : bw.toNat < min data.length (2 ^ 32 - 1 - f.pos) → full) :
      FileStep ready ready' full faulty f (.write data) (.write .frOk bw)
        (some (f.put (data.take bw.toNat)))
  | seek {f : File} {ofs : UInt32} (hready : ready) :
      FileStep ready ready' full faulty f (.seek ofs) (.done .frOk) (some (f.seek ofs.toNat))
  | truncate {f : File} (hready : ready) (hmode : f.canWrite = true) :
      FileStep ready ready' full faulty f .truncate (.done .frOk) (some f.cut)
  | sync {f : File} (hready : ready) :
      FileStep ready ready' full faulty f .sync (.done .frOk) (some f)
  | close {f : File} (hready : ready) :
      FileStep ready ready' full faulty f .close (.done .frOk) none
  | invalid {f : File} {op : FileOp} (hready : ¬ ready) :
      FileStep ready ready' full faulty f op (op.refuse .frInvalidObject) (some f)
  | denied {f : File} {op : FileOp} (hready : ready) (hmode : ¬ f.Permits op) :
      FileStep ready ready' full faulty f op (op.refuse .frDenied) (some f)
  /-- What has not been stored is kept. -/
  | unsynced {f : File} (hfaulty : faulty) :
      FileStep ready ready' full faulty f .sync (.done .frDiskErr) (some f)
  | unclosed {f : File} (hfaulty : faulty) :
      FileStep ready ready' full faulty f .close (.done .frDiskErr) (some f)
  /-- The file has been stored, but the drive is not ready any more. -/
  | lost {f : File} (hready : ready) (hlost : ¬ ready') :
      FileStep ready ready' full faulty f .close (.done .frInvalidObject) (some f)
  | failed {f : File} {op : FileOp} {answer : FileAnswer} (hfaulty : faulty)
      (hres : answer.res = .frDiskErr ∨ answer.res = .frIntErr) :
      FileStep ready ready' full faulty f op answer none

/-- Less is said of what is full. -/
theorem FileStep.mono {ready ready' full full' faulty : Prop} {f : File} {op : FileOp}
    {answer : FileAnswer} {f' : Option File} (h : FileStep ready ready' full faulty f op answer f')
    (hfull : full → full') : FileStep ready ready' full' faulty f op answer f' := by
  cases h with
  | read hready hmode => exact .read hready hmode
  | write hready hmode hle hshort => exact .write hready hmode hle fun hlt => hfull (hshort hlt)
  | seek hready => exact .seek hready
  | truncate hready hmode => exact .truncate hready hmode
  | sync hready => exact .sync hready
  | close hready => exact .close hready
  | invalid hready => exact .invalid hready
  | denied hready hmode => exact .denied hready hmode
  | unsynced hfaulty => exact .unsynced hfaulty
  | unclosed hfaulty => exact .unclosed hfaulty
  | lost hready hlost => exact .lost hready hlost
  | failed hfaulty hres => exact .failed hfaulty hres

section Bytes

variable {b b' data : ℕ → UInt8} {n m p k : ℕ}

theorem drop_bytesFrom : (bytesFrom b p n).drop m = bytesFrom b (p + m) (n - m) := by
  refine List.ext_getElem (by simp) fun i hi _ => ?_
  simp [bytesFrom, Nat.add_assoc]

theorem take_bytesFrom : (bytesFrom b p n).take m = bytesFrom b p (min m n) := by
  refine List.ext_getElem (by simp) fun i hi _ => ?_
  simp [bytesFrom]

theorem bytesFrom_shift (h : ∀ i < n, b (p + i) = b' (m + i)) :
    bytesFrom b p n = bytesFrom b' m n :=
  List.map_congr_left fun i hi => h i (List.mem_range.1 hi)

/-- Bytes with others over them. -/
theorem bytesFrom_overwritten (hp : p ≤ n) :
    bytesFrom (overwritten b data p k) 0 (max n (p + k)) =
      (bytesFrom b 0 n).take p ++ bytesFrom data 0 k ++ (bytesFrom b 0 n).drop (p + k) := by
  have hbefore : bytesFrom (overwritten b data p k) 0 p = bytesFrom b 0 p :=
    bytesFrom_congr fun i hi => if_neg (by omega)
  have hin : bytesFrom (overwritten b data p k) p k = bytesFrom data 0 k :=
    bytesFrom_shift fun i hi => by
      rw [overwritten, if_pos (by omega), Nat.zero_add, Nat.add_sub_cancel_left]
  have hbehind : bytesFrom (overwritten b data p k) (p + k) (n - (p + k)) =
      bytesFrom b (p + k) (n - (p + k)) :=
    bytesFrom_congr fun i hi => if_neg (by omega)
  rw [show max n (p + k) = p + k + (n - (p + k)) by omega, bytesFrom_add, bytesFrom_add,
    Nat.zero_add, Nat.zero_add, hbefore, hin, hbehind, take_bytesFrom, drop_bytesFrom,
    Nat.min_eq_left hp, Nat.zero_add]

theorem bytesFrom_getD (l : List UInt8) (hk : k ≤ l.length) :
    bytesFrom (fun i => l.getD i 0) 0 k = l.take k := by
  refine List.ext_getElem (by simp [hk]) fun i hi hi' => ?_
  rw [length_bytesFrom] at hi
  have hlt : i < l.length := by omega
  simp [bytesFrom, hlt]

end Bytes

/-! ## Volumes with open files -/

variable {σ ι : Type}

/-- A volume and the objects of its open files. -/
structure FileSys (ι σ : Type) where
  vol : Volume σ
  fil : ι → Fil

def FileSys.handle (s : FileSys ι σ) (i : ι) : Handle σ :=
  { vol := s.vol, fil := s.fil i }

def FileSys.setHandle [DecidableEq ι] (s : FileSys ι σ) (i : ι) (h : Handle σ) : FileSys ι σ :=
  { vol := h.vol, fil := Function.update s.fil i h.fil }

/-- A call for the object of one file. -/
def onFile [DecidableEq ι] {α : Type} (i : ι) (m : Program (Handle σ) α) :
    Program (FileSys ι σ) α :=
  zoom (fun s => s.handle i) (fun h s => s.setHandle i h) m

def fileOp (d : Storage σ) : FileOp → Program (Handle σ) FileAnswer
  | .read btr => do
    let (res, data) ← fRead d btr
    pure (.read res data)
  | .write data => do
    let (res, bw) ← fWrite d (fun i => data.getD i 0) (UInt32.ofNat data.length)
    pure (.write res bw)
  | .seek ofs => do pure (.done (← fLseek d ofs))
  | .truncate => do pure (.done (← fTruncate d))
  | .sync => do pure (.done (← fSync d))
  | .close => do pure (.done (← fClose d))

/-- One call after the other, each for some file. -/
def fileMachine [DecidableEq ι] (d : Storage σ) :
    Machine (FileSys ι σ) (ι × FileOp) (Option FileAnswer) where
  step s op := ((exec (onFile op.1 (fileOp d op.2)) s).2, (exec (onFile op.1 (fileOp d op.2)) s).1)

/-- What the caller has to see to : a number of bytes is one of 32 bits, a pointer that may write
is not moved behind the end, and a file that a call has reported an error for is not written
back. -/
def Handle.Admits (h : Handle σ) : FileOp → Prop
  | .write data => data.length < 2 ^ 32
  | .seek ofs => h.fil.faWrite = true → ofs ≤ h.fil.objsize
  | .sync | .close => h.fil.err = .frOk
  | _ => True

/-! ## One call -/

section OneFile

variable {d : Storage σ} {A P : Set UInt32} {h h' : Handle σ} {l l' : List UInt32} {f : File}

/-- The object is that of the file `f` with the clusters `l`. `A` are the clusters in use that
are not those of open files, and `P` those that a call for the file leaves alone. -/
structure Handle.Holds (d : Storage σ) (A P : Set UInt32) (h : Handle σ) (l : List UInt32)
    (f : File) : Prop extends Handle.Fits d P h l where
  at_ : h.At l
  dir : h.InDir A
  opened : h.fil.opened = true
  err : h.fil.err = .frOk
  data : f.data = bytesFrom (h.byte d l) 0 h.fil.objsize.toNat
  ptr : f.pos = h.fil.fptr.toNat
  canRead : f.canRead = h.fil.faRead
  canWrite : f.canWrite = h.fil.faWrite

/-- The object of a file that has been given up or closed : all calls that are admitted are
refused. -/
def Handle.Gone (h : Handle σ) : Prop :=
  h.fil.opened = false ∨ h.fil.err ≠ .frOk

/-- What is left of an object : that of a file, or one that is gone. -/
def Handle.Remains (d : Storage σ) (A P : Set UInt32) (h : Handle σ) : Option File → Prop
  | some f => ∃ l, h.Holds d A P l f
  | none => h.Gone

/-- What a call leaves of the other files : the entries of the clusters `P`, and what is seen of
those that are not in `A`. -/
structure Volume.Leaves (d : Storage σ) (A P : Set UInt32) (v v' : Volume σ) : Prop where
  geometry : v'.fs.toFatGeometry = v.fs.toFatGeometry
  coherent : v'.Coherent d
  link : ∀ c ∈ P, v.fs.IsCluster c → v'.link d c = v.link d c
  view : ∀ s, v.fs.InClusters (P \ A) s → v'.view d s = v.view d s
  away : ¬ v.fs.InClusters Aᶜ v.fs.winsect → ¬ v.fs.InClusters Aᶜ v'.fs.winsect

theorem FatGeometry.InClusters.mono {g : FatGeometry} {C D : Set UInt32} {s : UInt32}
    (hs : g.InClusters C s) (hsub : C ⊆ D) : g.InClusters D s := by
  obtain ⟨c, hc, hrest⟩ := hs
  exact ⟨c, hsub hc, hrest⟩

/-- No sector is one of two clusters. -/
theorem FatGeometry.InClusters.not_compl {g : FatGeometry} (hg : g.WellFormed)
    {C : Set UInt32} {s : UInt32} (hs : g.InClusters C s) : ¬ g.InClusters Cᶜ s := by
  obtain ⟨c, hc, k, hcl, hk, rfl⟩ := hs
  rintro ⟨c', hc', k', hcl', hk', heq⟩
  obtain ⟨rfl, -⟩ := data_inj hg hcl hcl' hk hk' heq
  exact hc' hc

theorem FatGeometry.InClusters.not_inFat {g : FatGeometry} (hg : g.WellFormed)
    {C : Set UInt32} {s : UInt32} (hs : g.InClusters C s) : ¬ g.InFat s := by
  obtain ⟨c, -, k, hcl, hk, rfl⟩ := hs
  exact data_not_inFat hg hcl hk

theorem Volume.Keeps.leaves {v v' : Volume σ} (hg : v.fs.WellFormed) (hk : v.Keeps d P v') :
    v.Leaves d A P v' := by
  refine ⟨hk.geometry, hk.coherent, hk.link, fun s hs => ?_, hk.moves.not_inClusters hg⟩
  exact hk.view s (hs.not_inFat hg) ((hs.mono Set.sdiff_subset).not_compl hg)

theorem Handle.Saves.leaves (hs : h.Saves d P h' l) (hf : h.Fits d P l) (hdir : h.InDir A) :
    h.vol.Leaves d A P h'.vol := by
  have hg := hf.owned.geometry
  have hr := hs.relinks
  refine ⟨hr.geometry, hs.owned.coherent, fun c hc _ => ?_, fun s hin => ?_, fun haway => ?_⟩
  · have hl : c ∉ l := fun hl => hf.owned.apart c hl hc
    exact hr.becomes.keeps c hl hl
  · refine hs.view s ?_ (hin.not_inFat hg) ((hin.mono Set.sdiff_subset).not_compl hg)
    rintro rfl
    exact hdir.apart (hin.mono fun c hc => hc.2)
  · obtain hw | hw | ⟨ht, hw⟩ := hs.winsect
    · exact hw.not_inClusters hg haway
    · rw [hw]
      exact hdir.apart
    · rw [hw]
      exact hg.fsInfo_apart ht

theorem Handle.Saves.not_broken (hs : h.Saves d P h' l) (hbr : ¬ h.vol.Broken d) :
    ¬ h'.vol.Broken d :=
  fun hb => hbr (hs.relinks.broken hs.owned.toChained hb)

theorem Handle.InDir.congr (hdir : h.InDir A)
    (hg : h'.vol.fs.toFatGeometry = h.vol.fs.toFatGeometry)
    (hsect : h'.fil.dirSect = h.fil.dirSect) (hptr : h'.fil.dirPtr = h.fil.dirPtr) :
    h'.InDir A := by
  refine ⟨?_, ?_, ?_, ?_⟩
  · rw [hg, hsect]
    exact hdir.visible
  · rw [hg, hsect]
    exact hdir.notInFat
  · rw [hg, hsect]
    exact hdir.apart
  · rw [hptr]
    exact hdir.room

theorem Handle.InDir.mono (hdir : h.InDir A) (hAP : A ⊆ P) : h.InDir P :=
  ⟨hdir.visible, hdir.notInFat,
    fun hin => hdir.apart (hin.mono (Set.compl_subset_compl.2 hAP)), hdir.room⟩

/-- What a call with this answer leaves, for its file and for the others. -/
structure Handle.Called (d : Storage σ) (A P : Set UInt32) (h : Handle σ) (f : File)
    (op : FileOp) (answer : FileAnswer) (h' : Handle σ) : Prop where
  leaves : h.vol.Leaves d A P h'.vol
  broken : d.Reliable → ¬ h'.vol.Broken d
  count : ¬ answer.Failed → h.vol.CountOk d → h'.vol.CountOk d
  step : ∃ f', FileStep (d.diskStatus h.vol.disk &&& staNoinit = 0)
    (d.diskStatus h'.vol.disk &&& staNoinit = 0) (h.vol.CountOk d → h'.vol.Full d)
    (¬ d.Reliable) f op answer f' ∧ h'.Remains d A P f'

theorem Handle.Holds.ready_iff (hh : h.Holds d A P l f) :
    h.Ready d ↔ d.diskStatus h.vol.disk &&& staNoinit = 0 :=
  ⟨fun hr => hr.2.2, fun hs => ⟨hh.opened, hh.err, hs⟩⟩

theorem Handle.Holds.valid_iff (hh : h.Holds d A P l f) :
    h.Valid d ↔ d.diskStatus h.vol.disk &&& staNoinit = 0 :=
  ⟨fun hv => hv.2, fun hst => ⟨hh.opened, hst⟩⟩

theorem Handle.Holds.length (hh : h.Holds d A P l f) : f.data.length = h.fil.objsize.toNat := by
  rw [hh.data, length_bytesFrom]

/-- The bytes from the pointer on. -/
theorem Handle.Holds.next (hh : h.Holds d A P l f) (n : ℕ) : f.next n =
    bytesFrom (h.byte d l) h.fil.fptr.toNat (min n (h.fil.objsize.toNat - h.fil.fptr.toNat)) := by
  rw [File.next, hh.data, hh.ptr, drop_bytesFrom, take_bytesFrom, Nat.zero_add]

variable (hh : h.Holds d A P l f) (hbr : d.Reliable → ¬ h.vol.Broken d)

include hh

theorem Handle.Holds.leaves_refl : h.vol.Leaves d A P h.vol :=
  (Volume.Keeps.refl hh.owned.coherent).leaves hh.owned.geometry

/-- The file after it has been written back. -/
theorem Handle.Holds.saves (hs : h.Saves d P h' l) : h'.Holds d A P l f := by
  have hgeom := hs.relinks.geometry
  have hfil := hs.fil
  refine ⟨hs.toFits, ⟨fun hpos => ?_, fun hne => ?_⟩, hh.dir.congr hgeom (by rw [hfil])
    (by rw [hfil]), by rw [hfil, hh.opened], by rw [hfil, hh.err], ?_, by rw [hfil, hh.ptr],
    by rw [hfil, hh.canRead], by rw [hfil, hh.canWrite]⟩
  · rw [hfil] at hpos ⊢
    rw [hgeom]
    exact hh.at_.clust hpos
  · rw [hfil] at hne ⊢
    rw [hgeom]
    exact hh.at_.sect hne
  · have hobj : h'.fil.objsize = h.fil.objsize := by rw [hfil]
    rw [hobj]
    refine hh.data.trans (bytesFrom_congr fun i hi => ?_)
    rw [Nat.zero_add, hs.byte i (hh.toFits.div_lt hi)]

include hbr

theorem Handle.Holds.refused (op : FileOp) (hwhy : ¬ (h.Ready d ∧ f.Permits op)) :
    h.Called d A P f op (op.refuse (h.refusal d)) h := by
  refine ⟨hh.leaves_refl, hbr, fun _ => id, some f, ?_, l, hh⟩
  by_cases hready : h.Ready d
  · rw [hready.refusal]
    exact .denied (hh.ready_iff.1 hready) fun hp => hwhy ⟨hready, hp⟩
  · rw [show h.refusal d = .frInvalidObject from if_neg fun hv => hready ⟨hv.1, hh.err, hv.2⟩]
    exact .invalid (hh.ready_iff.not.1 hready)

/-- A call that gives the file up. -/
theorem Handle.Holds.failed {op : FileOp} {answer : FileAnswer} (hk : h.vol.Keeps d P h'.vol)
    (herr : h'.fil.err = answer.res) (hwhy : (answer.res = .frIntErr ∧ h.vol.Broken d) ∨
      (answer.res = .frDiskErr ∧ ¬ d.Reliable)) : h.Called d A P f op answer h' := by
  have hd : ¬ d.Reliable := by
    obtain ⟨-, hbroken⟩ | ⟨-, hd⟩ := hwhy
    · exact fun hd => hbr hd hbroken
    · exact hd
  have hfailed : answer.Failed := hwhy.symm.imp (·.1) (·.1)
  refine ⟨hk.leaves hh.owned.geometry, fun hrel => absurd hrel hd,
    fun hno => absurd hfailed hno, none, .failed hd hfailed, .inr ?_⟩
  rw [herr]
  obtain ⟨hres, -⟩ | ⟨hres, -⟩ := hwhy <;> rw [hres] <;> decide

/-- `f_read` for a file. -/
theorem read_returns (btr : UInt32) :
    Returns (fileOp d (.read btr)) h (h.Called d A P f (.read btr)) := by
  unfold fileOp
  refine Returns.bind (fRead_returns hh.toFits hh.at_ btr) ?_
  rintro ⟨res, data⟩ h' (⟨hwhy, hres, rfl⟩ | ⟨⟨hready, hmode⟩, n, rfl, ⟨heq, hm⟩ |
    ⟨hres, hd, herr, hk, -⟩⟩)
  · obtain ⟨rfl, rfl⟩ := Prod.mk.inj hres
    refine hh.refused hbr (.read btr) fun hall => hwhy ⟨hall.1, ?_⟩
    rw [← hh.canRead]
    exact hall.2
  · obtain ⟨rfl, rfl⟩ := Prod.mk.inj heq
    have hgrows := hm.toGrows
    have hsize : h'.fil.objsize = h.fil.objsize := by rw [hm.fil]
    rw [returns_pure, ← hh.next]
    refine ⟨hm.keeps.leaves hh.owned.geometry, fun hd => ?_, fun _ => hm.relinks.count, _,
      .read (hh.ready_iff.1 hready) (by rw [hh.canRead, hmode]), l, hm.toFits, hm.at_,
      hh.dir.congr hm.fs (by rw [hm.fil]) (by rw [hm.fil]), by rw [hm.fil, hh.opened],
      by rw [hm.fil, hh.err], ?_, ?_, by rw [hm.fil]; exact hh.canRead,
      by rw [hm.fil]; exact hh.canWrite⟩
    · exact fun hb => hbr hd (hm.relinks.broken hm.owned.toChained hb)
    · rw [hsize]
      refine hh.data.trans (bytesFrom_congr fun i hi => ?_)
      rw [Nat.zero_add, hm.byte i (hh.toFits.div_lt hi)]
    · have hlen := hh.length
      have hptr := hh.ptr
      have hpos := hh.pos
      rw [hm.ptr]
      simp only [File.seek]
      omega
  · exact hh.failed hbr hk (herr.trans hres.symm) (.inr ⟨hres, hd⟩)

/-- `f_write` for a file. -/
theorem write_returns {data : List UInt8} (hlen : data.length < 2 ^ 32) :
    Returns (fileOp d (.write data)) h (h.Called d A P f (.write data)) := by
  have hbtw : (UInt32.ofNat data.length).toNat = data.length := UInt32.toNat_ofNat_of_lt' hlen
  unfold fileOp
  refine Returns.bind (fWrite_returns hh.toFits hh.at_ _ _) ?_
  rintro ⟨res, bw⟩ h' (⟨hwhy, hres, rfl⟩ | ⟨⟨hready, hmode⟩, n, hn,
    ⟨rfl, hle, -, hshort, l', hputs⟩ | ⟨hk, herr, hwhy⟩⟩)
  · obtain ⟨rfl, rfl⟩ := Prod.mk.inj hres
    refine hh.refused hbr (.write data) fun hall => hwhy ⟨hall.1, ?_⟩
    rw [← hh.canWrite]
    exact hall.2
  · rw [hbtw, ← hh.ptr] at hn
    subst hn
    have hptr := hputs.ptr
    have hpos := hh.pos
    simp only at hle hshort hptr
    refine ⟨hputs.keeps.leaves hh.owned.geometry, fun hd => ?_, fun _ => hputs.relinks.count, _,
      .write (hh.ready_iff.1 hready) (by rw [hh.canWrite, hmode]) hle
        fun hlt hcount => (hshort hlt).full (hputs.relinks.count hcount), l', hputs.toFits,
      hputs.at_, hh.dir.congr hputs.keeps.geometry (by rw [hputs.fil]) (by rw [hputs.fil]),
      by rw [hputs.fil, hh.opened], by rw [hputs.fil, hh.err], ?_, ?_,
      by rw [hputs.fil]; exact hh.canRead, by rw [hputs.fil]; exact hh.canWrite⟩
    · exact fun hb => hbr hd (hputs.relinks.broken hputs.owned.toChained hb)
    · have hbytes : bytesFrom (h'.byte d l') 0 h'.fil.objsize.toNat =
          bytesFrom (overwritten (h.byte d l) (fun i => data.getD i 0) h.fil.fptr.toNat bw.toNat)
            0 h'.fil.objsize.toNat :=
        bytesFrom_congr fun i hi => by rw [Nat.zero_add, hputs.byte i hi]
      have hlen' : (data.take bw.toNat).length = bw.toNat := by
        rw [List.length_take]
        omega
      rw [hbytes, hputs.grown, bytesFrom_overwritten hpos, bytesFrom_getD data (by omega)]
      simp only [File.put, hlen', hh.ptr, hh.data]
    · simp only [File.put, List.length_take]
      rw [hptr, hh.ptr]
      omega
  · exact hh.failed hbr hk herr hwhy

/-- `f_lseek` for a file. -/
theorem seek_returns {ofs : UInt32} (hofs : h.fil.faWrite = true → ofs ≤ h.fil.objsize) :
    Returns (fileOp d (.seek ofs)) h (h.Called d A P f (.seek ofs)) := by
  have hx : ofs ≤ h.fil.objsize ∨ h.fil.faWrite = false ∨ h.Exact d := by
    cases hw : h.fil.faWrite with
    | false => exact .inr (.inl rfl)
    | true => exact .inl (hofs hw)
  unfold fileOp
  refine Returns.bind (fLseek_returns hh.toFits hh.at_ ofs hx) ?_
  rintro res h' (⟨hwhy, hres, rfl⟩ | ⟨hready, n, hn, ⟨rfl, l', hseeks, hptr⟩ | ⟨hk, herr, hwhy⟩⟩)
  · subst hres
    exact hh.refused hbr (.seek ofs) fun hall => hwhy hall.1
  · have hn' : n = min ofs.toNat h.fil.objsize.toNat := by
      rw [hn]
      split_ifs with hw
      · exact (min_eq_left (UInt32.le_iff_toNat_le.1 (hofs hw))).symm
      · rfl
    have hsize := hh.size
    have hptr' : h'.fil.fptr.toNat = n := by
      obtain hptr | ⟨-, hbehind, -⟩ := hptr
      · exact hptr
      · omega
    have hgrown := hseeks.grown
    have hobj : h'.fil.objsize.toNat = h.fil.objsize.toNat := by omega
    have hlen := hh.length
    refine ⟨hseeks.keeps.leaves hh.owned.geometry, fun hd => ?_, fun _ => hseeks.relinks.count, _,
      .seek (hh.ready_iff.1 hready), l', hseeks.toFits, hseeks.at_,
      hh.dir.congr hseeks.keeps.geometry (by rw [hseeks.fil]) (by rw [hseeks.fil]),
      by rw [hseeks.fil, hh.opened], by rw [hseeks.fil, hh.err], ?_, ?_,
      by rw [hseeks.fil]; exact hh.canRead, by rw [hseeks.fil]; exact hh.canWrite⟩
    · exact fun hb => hbr hd (hseeks.relinks.broken hseeks.owned.toChained hb)
    · rw [hobj]
      refine hh.data.trans (bytesFrom_congr fun i hi => ?_)
      rw [Nat.zero_add, hseeks.byte i hi]
    · simp only [File.seek]
      omega
  · exact hh.failed hbr hk herr hwhy

/-- `f_truncate` for a file. -/
theorem truncate_returns :
    Returns (fileOp d .truncate) h (h.Called d A P f .truncate) := by
  unfold fileOp
  refine Returns.bind (fTruncate_returns hh.toFits hh.at_) ?_
  rintro res h' (⟨hwhy, rfl, rfl⟩ | ⟨⟨hready, hmode⟩, ⟨rfl, heq, rfl⟩ | ⟨rfl, hlt, l', hcuts⟩ |
    ⟨rfl, hd, hk, herr⟩⟩)
  · refine hh.refused hbr .truncate fun hall => hwhy ⟨hall.1, ?_⟩
    rw [← hh.canWrite]
    exact hall.2
  · have hcut : f.cut = f := by
      have hlen := hh.length
      have hptr := hh.ptr
      obtain ⟨data, pos, r, w, hle⟩ := f
      simp only [File.cut, File.mk.injEq, and_true]
      exact List.take_of_length_le (by simp only at hlen hptr; rw [hlen, hptr, heq])
    refine ⟨hh.leaves_refl, hbr, fun _ => id, some f.cut,
      .truncate (hh.ready_iff.1 hready) (by rw [hh.canWrite, hmode]), l, ?_⟩
    rw [hcut]
    exact hh
  · have hptr' : h'.fil.fptr = h.fil.fptr := by rw [hcuts.fil]
    have hobj : h'.fil.objsize = h.fil.fptr := by rw [hcuts.fil]
    have hpos := hh.pos
    refine ⟨hcuts.keeps.leaves hh.owned.geometry, fun hd => ?_, fun _ => hcuts.relinks.count, _,
      .truncate (hh.ready_iff.1 hready) (by rw [hh.canWrite, hmode]), l', hcuts.toFits,
      hcuts.at_, hh.dir.congr hcuts.keeps.geometry (by rw [hcuts.fil]) (by rw [hcuts.fil]),
      by rw [hcuts.fil, hh.opened], by rw [hcuts.fil, hh.err], ?_, ?_,
      by rw [hcuts.fil]; exact hh.canRead, by rw [hcuts.fil]; exact hh.canWrite⟩
    · exact fun hb => hbr hd (hcuts.relinks.broken hcuts.owned.toChained hb)
    · rw [hobj, File.cut]
      simp only
      rw [hh.data, hh.ptr, take_bytesFrom, Nat.min_eq_left hpos]
      exact bytesFrom_congr fun i hi => by rw [Nat.zero_add, hcuts.byte i hi]
    · rw [hptr']
      exact hh.ptr
  · exact hh.failed hbr hk herr (.inr ⟨rfl, hd⟩)

/-- `f_sync` for a file. -/
theorem sync_returns (hAP : A ⊆ P) :
    Returns (fileOp d .sync) h (h.Called d A P f .sync) := by
  unfold fileOp
  refine Returns.bind (fSync_returns hh.toFits (hh.dir.mono hAP)) ?_
  rintro res h' ⟨hs, hr⟩
  have hleaves := hs.leaves hh.toFits hh.dir
  have hafter := hh.saves hs
  have hbroken := fun hd => hs.not_broken (hbr hd)
  have hcount := fun (_ : ¬ (FileAnswer.done res).Failed) => hs.relinks.count
  obtain ⟨rfl, hinv, rfl⟩ | ⟨rfl, hv, -⟩ | ⟨rfl, hv, -⟩ | ⟨rfl, hd⟩ := hr
  · exact ⟨hleaves, hbr, hcount, some f, .invalid (hh.valid_iff.not.1 hinv), l, hh⟩
  · exact ⟨hleaves, hbroken, hcount, some f, .sync hv.2, l, hafter⟩
  · exact ⟨hleaves, hbroken, hcount, some f, .sync hv.2, l, hafter⟩
  · exact ⟨hleaves, hbroken, hcount, some f, .unsynced hd, l, hafter⟩

/-- `f_close` for a file. -/
theorem close_returns (hAP : A ⊆ P) :
    Returns (fileOp d .close) h (h.Called d A P f .close) := by
  unfold fileOp
  refine Returns.bind (fClose_returns hh.toFits (hh.dir.mono hAP)) ?_
  rintro res h' ⟨h₁, hs, hr⟩
  have hleaves := hs.leaves hh.toFits hh.dir
  have hbroken := fun hd => hs.not_broken (hbr hd)
  have hcount := fun (_ : ¬ (FileAnswer.done res).Failed) => hs.relinks.count
  have hafter := hh.saves hs
  obtain ⟨rfl, rfl, hv, -⟩ | ⟨rfl, hinv, rfl⟩ | ⟨rfl, hd, rfl⟩ | ⟨rfl, hv, hlost, rfl⟩ := hr
  · exact ⟨hleaves, hbroken, hcount, none, .close hv.2, .inl rfl⟩
  · exact ⟨hh.leaves_refl, hbr, fun _ => id, some f, .invalid (hh.valid_iff.not.1 hinv), l,
      hh⟩
  · exact ⟨hleaves, hbroken, hcount, some f, .unclosed hd, l, hafter⟩
  · exact ⟨hleaves, hbroken, hcount, some f, .lost hv.2 (hafter.valid_iff.not.1 hlost), l, hafter⟩

/-- One call for a file. -/
theorem fileOp_returns (hAP : A ⊆ P) {op : FileOp} (hop : h.Admits op) :
    Returns (fileOp d op) h (h.Called d A P f op) := by
  cases op with
  | read btr => exact read_returns hh hbr btr
  | write data => exact write_returns hh hbr hop
  | seek ofs => exact seek_returns hh hbr hop
  | truncate => exact truncate_returns hh hbr
  | sync => exact sync_returns hh hbr hAP
  | close => exact close_returns hh hbr hAP

end OneFile

/-- A call for an object that is gone. -/
theorem Handle.Gone.returns {d : Storage σ} {h : Handle σ} (hgone : h.Gone)
    (hmounted : h.vol.fs.fsType ≠ .blank) {op : FileOp} (hop : h.Admits op) :
    Returns (fileOp d op) h fun answer h' => h' = h ∧ answer.res ≠ .frOk := by
  have hready : ¬ h.Ready d := by
    rintro ⟨hopen, herr, -⟩
    obtain hclosed | hbad := hgone
    · exact absurd (hclosed.symm.trans hopen) (by decide)
    · exact hbad herr
  have hclosed : h.fil.err = .frOk → ¬ h.Valid d := fun herr hv => hready ⟨hv.1, herr, hv.2⟩
  cases op with
  | read btr =>
    unfold fileOp fRead
    rw [returns_bind]
    refine Returns.bind (checkFile_returns hmounted) ?_
    rintro res h' ⟨rfl, hres, -⟩
    have hbad : res ≠ .frOk := fun hok => hready (hres.1 hok)
    rw [if_pos hbad]
    exact ⟨rfl, hbad⟩
  | write data =>
    unfold fileOp fWrite
    rw [returns_bind]
    refine Returns.bind (checkFile_returns hmounted) ?_
    rintro res h' ⟨rfl, hres, -⟩
    have hbad : res ≠ .frOk := fun hok => hready (hres.1 hok)
    rw [if_pos hbad]
    exact ⟨rfl, hbad⟩
  | seek ofs =>
    unfold fileOp fLseek
    rw [returns_bind]
    refine Returns.bind (checkFile_returns hmounted) ?_
    rintro res h' ⟨rfl, hres, -⟩
    have hbad : res ≠ .frOk := fun hok => hready (hres.1 hok)
    rw [if_pos hbad]
    exact ⟨rfl, hbad⟩
  | truncate =>
    unfold fileOp fTruncate
    rw [returns_bind]
    refine Returns.bind (checkFile_returns hmounted) ?_
    rintro res h' ⟨rfl, hres, -⟩
    have hbad : res ≠ .frOk := fun hok => hready (hres.1 hok)
    rw [if_pos hbad]
    exact ⟨rfl, hbad⟩
  | sync =>
    unfold fileOp fSync
    rw [returns_bind]
    refine Returns.bind (validate_returns hmounted) ?_
    rintro res h' ⟨rfl, ⟨rfl, hv⟩ | ⟨rfl, -⟩⟩
    · exact absurd hv (hclosed hop)
    · exact ⟨rfl, by decide⟩
  | close =>
    unfold fileOp fClose fSync
    rw [returns_bind, returns_bind]
    refine Returns.bind (validate_returns hmounted) ?_
    rintro res h' ⟨rfl, ⟨rfl, hv⟩ | ⟨rfl, -⟩⟩
    · exact absurd hv (hclosed hop)
    · exact ⟨rfl, by decide⟩

/-! ## Runs -/

section Runs

variable [DecidableEq ι] {d : Storage σ} {A : Set UInt32} {whole : Prop} {s s' : FileSys ι σ}
  {chain chain' : ι → List UInt32} {table table' : ι → Option File} {i j : ι}

/-- The clusters that a call for the file `i` leaves alone : those of no open file, and those of
the other ones. -/
def others (A : Set UInt32) (chain : ι → List UInt32) (table : ι → Option File) (i : ι) :
    Set UInt32 :=
  {c | c ∈ A ∨ ∃ j, j ≠ i ∧ (table j).isSome ∧ c ∈ chain j}

/-- The objects are those of the files in the table, each with a chain of its own, and while the
volume is `whole` the number of its free clusters is right. -/
structure FileSys.Sound (d : Storage σ) (A : Set UInt32) (whole : Prop) (s : FileSys ι σ)
    (chain : ι → List UInt32) (table : ι → Option File) : Prop where
  geometry : s.vol.fs.WellFormed
  away : ¬ s.vol.fs.InClusters Aᶜ s.vol.fs.winsect
  broken : d.Reliable → ¬ s.vol.Broken d
  count : whole → s.vol.CountOk d
  holds : ∀ i f, table i = some f → (s.handle i).Holds d A (others A chain table i) (chain i) f
  gone : ∀ i, table i = none → (s.handle i).Gone

omit [DecidableEq ι] in
theorem subset_others : A ⊆ others A chain table i :=
  fun _ hc => .inl hc

theorem others_update (l : List UInt32) (f : Option File) :
    others A (Function.update chain i l) (Function.update table i f) i =
      others A chain table i := by
  ext c
  refine or_congr_right (exists_congr fun j => and_congr_right fun hj => ?_)
  rw [Function.update_of_ne hj, Function.update_of_ne hj]

/-- A call for the file `i` leaves the file `j`. -/
theorem FileSys.Sound.other (hs : s.Sound d A whole chain table) (hij : j ≠ i) {h' : Handle σ}
    (hleaves : s.vol.Leaves d A (others A chain table i) h'.vol) {l : List UInt32}
    {f' : Option File} (hl : f'.isSome → (∀ c ∈ l, c ∉ others A chain table i) ∧
      Link.Leads (h'.vol.link d) l) {f : File} (hf : table j = some f) :
    Handle.Holds d A (others A (Function.update chain i l) (Function.update table i f') j)
      ((s.setHandle i h').handle j) (chain j) f := by
  have hh := hs.holds j f hf
  have hgeom := hleaves.geometry
  have hmine : ∀ c ∈ chain j, c ∈ others A chain table i :=
    fun c hc => .inr ⟨j, hij, by rw [hf]; rfl, hc⟩
  have hhandle : (s.setHandle i h').handle j = { s.handle j with vol := h'.vol } := by
    simp [setHandle, handle, Function.update_of_ne hij]
  have hin : ∀ n < s.vol.fs.sectors (chain j),
      s.vol.fs.InClusters (others A chain table i \ A) (s.vol.fs.fileSect (chain j) n) := by
    intro n hn
    obtain ⟨c, hc, k, hcl, hk, heq⟩ := exists_fileSect hs.geometry hh.owned.mem hn
    exact ⟨c, ⟨hmine c hc, fun hA => hh.owned.apart c hc (.inl hA)⟩, k, hcl, hk, heq⟩
  have hapart : ∀ c ∈ chain j,
      c ∉ others A (Function.update chain i l) (Function.update table i f') j := by
    rintro c hc (hA | ⟨k, hkj, hk, hck⟩)
    · exact hh.owned.apart c hc (.inl hA)
    · by_cases hki : k = i
      · subst hki
        rw [Function.update_self] at hk hck
        exact (hl hk).1 c hck (hmine c hc)
      · rw [Function.update_of_ne hki] at hk hck
        exact hh.owned.apart c hc (.inr ⟨k, hkj, hk, hck⟩)
  have hused : ∀ c ∈ others A (Function.update chain i l) (Function.update table i f') j,
      h'.vol.fs.IsCluster c → h'.vol.link d c ≠ .free := by
    intro c hc hcl
    rw [hgeom] at hcl
    obtain hA | ⟨k, hkj, hk, hck⟩ := hc
    · rw [hleaves.link c (.inl hA) hcl]
      exact hh.owned.used c (.inl hA) hcl
    · by_cases hki : k = i
      · subst hki
        rw [Function.update_self] at hk hck
        exact (hl hk).2.ne_free hck
      · rw [Function.update_of_ne hki] at hk hck
        rw [hleaves.link c (.inr ⟨k, hki, hk, hck⟩) hcl]
        exact hh.owned.used c (.inr ⟨k, hkj, hk, hck⟩) hcl
  have haway : ¬ h'.vol.fs.InClusters
      (others A (Function.update chain i l) (Function.update table i f') j)ᶜ h'.vol.fs.winsect := by
    intro hwin
    rw [hgeom] at hwin
    exact hleaves.away hs.away (hwin.mono (Set.compl_subset_compl.2 subset_others))
  obtain ⟨hfits, hbyte⟩ := hh.toFits.frame hgeom hleaves.coherent
    (fun c hc => hleaves.link c (hmine c hc) (hh.owned.mem c hc))
    (fun n hn => hleaves.view _ (hin n hn)) hapart hused haway
  rw [hhandle]
  refine ⟨hfits, ⟨fun hpos => ?_, fun hne => ?_⟩, hh.dir.congr hgeom rfl rfl, hh.opened, hh.err,
    ?_, hh.ptr, hh.canRead, hh.canWrite⟩
  · simp only [hgeom]
    exact hh.at_.clust hpos
  · simp only [hgeom]
    exact hh.at_.sect hne
  · refine hh.data.trans (bytesFrom_congr fun n hn => ?_)
    rw [Nat.zero_add]
    exact (hbyte n (hh.toFits.div_lt hn)).symm

/-- The files after a call for the file `i`, which leaves `f` of it. -/
theorem FileSys.Sound.replace (hs : s.Sound d A whole chain table) {h' : Handle σ}
    (hleaves : s.vol.Leaves d A (others A chain table i) h'.vol)
    (hbroken : d.Reliable → ¬ h'.vol.Broken d) {whole' : Prop}
    (hcount : whole' → h'.vol.CountOk d) {f : Option File}
    (hremains : h'.Remains d A (others A chain table i) f) :
    ∃ l, (s.setHandle i h').Sound d A whole' (Function.update chain i l)
      (Function.update table i f) := by
  have hself : (s.setHandle i h').handle i = h' := by
    simp [FileSys.setHandle, FileSys.handle]
  obtain ⟨l, hl, hmine, hgone⟩ : ∃ l : List UInt32,
      (f.isSome → (∀ c ∈ l, c ∉ others A chain table i) ∧ Link.Leads (h'.vol.link d) l) ∧
      (∀ g, f = some g → h'.Holds d A (others A chain table i) l g) ∧
      (f = none → h'.Gone) := by
    cases f with
    | none => exact ⟨[], fun hno => absurd hno (by simp), nofun, fun _ => hremains⟩
    | some g =>
      obtain ⟨l, hg⟩ := hremains
      refine ⟨l, fun _ => ⟨hg.owned.apart, hg.owned.leads⟩, fun g' heq => ?_, nofun⟩
      obtain rfl := Option.some.inj heq
      exact hg
  refine ⟨l, ?_, ?_, hbroken, hcount, fun j g hg => ?_, fun j hnone => ?_⟩
  · exact hleaves.geometry ▸ hs.geometry
  · have haway := hleaves.away hs.away
    rw [← hleaves.geometry] at haway
    exact haway
  · by_cases hj : j = i
    · subst hj
      rw [Function.update_self] at hg
      rw [others_update, hself, Function.update_self]
      exact hmine g hg
    · rw [Function.update_of_ne hj] at hg
      rw [Function.update_of_ne hj]
      exact hs.other hj hleaves hl hg
  · by_cases hj : j = i
    · subst hj
      rw [Function.update_self] at hnone
      rw [hself]
      exact hgone hnone
    · rw [Function.update_of_ne hj] at hnone
      have hold : (s.setHandle i h').fil j = s.fil j := Function.update_of_ne hj ..
      have hg := hs.gone j hnone
      unfold Handle.Gone FileSys.handle at hg ⊢
      rwa [hold]

/-- What a call for the file `i` with this answer does to the table of the files of a volume that
is `whole` or not. -/
def FileSys.Steps (d : Storage σ) (whole : Prop) (s s' : FileSys ι σ) (table : ι → Option File)
    (i : ι) (op : FileOp) (answer : FileAnswer) (table' : ι → Option File) : Prop :=
  (∃ f f', table i = some f ∧
      FileStep (d.diskStatus s.vol.disk &&& staNoinit = 0)
        (d.diskStatus s'.vol.disk &&& staNoinit = 0) (whole → s'.vol.Full d) (¬ d.Reliable)
        f op answer f' ∧ table' = Function.update table i f') ∨
    (table i = none ∧ answer.res ≠ .frOk ∧ table' = table)

/-- The table of the files after a run, each call with its answer. The volume is whole until a
call has failed. -/
inductive FileRun (d : Storage σ) : Prop → FileSys ι σ → (ι → Option File) →
    List (ι × FileOp) → Prop → (ι → Option File) → Prop where
  | nil {whole : Prop} {s : FileSys ι σ} {table : ι → Option File} :
      FileRun d whole s table [] whole table
  | cons {whole whole' : Prop} {s : FileSys ι σ} {table table' table'' : ι → Option File}
      {op : ι × FileOp} {ops : List (ι × FileOp)} {answer : FileAnswer}
      (hans : ((fileMachine d).step s op).2 = some answer)
      (hstep : s.Steps d whole ((fileMachine d).step s op).1 table op.1 op.2 answer table')
      (hrest : FileRun d (whole ∧ ¬ answer.Failed) ((fileMachine d).step s op).1 table' ops
        whole' table'') :
      FileRun d whole s table (op :: ops) whole' table''

/-- One call for one of the files. -/
theorem onFile_returns (hs : s.Sound d A whole chain table) (i : ι) {op : FileOp}
    (hop : (s.handle i).Admits op) :
    Returns (onFile i (fileOp d op)) s fun answer s' => ∃ chain' table',
      s.Steps d whole s' table i op answer table' ∧
        s'.Sound d A (whole ∧ ¬ answer.Failed) chain' table' := by
  unfold onFile
  rw [returns_zoom]
  cases hf : table i with
  | none =>
    refine ((hs.gone i hf).returns hs.geometry.mounted hop).imp ?_
    rintro answer h' ⟨rfl, hres⟩
    have hsame : s.setHandle i (s.handle i) = s := by
      simp [FileSys.setHandle, FileSys.handle]
    refine ⟨chain, table, .inr ⟨hf, hres, rfl⟩, ?_⟩
    rw [hsame]
    exact { hs with count := fun hw => hs.count hw.1 }
  | some f =>
    have hh := hs.holds i f hf
    refine (fileOp_returns hh hs.broken subset_others hop).imp ?_
    rintro answer h' ⟨hleaves, hbroken, hcount, f', hstep, hremains⟩
    have hcount' : whole ∧ ¬ answer.Failed → h'.vol.CountOk d :=
      fun hw => hcount hw.2 (hs.count hw.1)
    obtain ⟨l, hsound⟩ := hs.replace hleaves hbroken hcount' hremains
    refine ⟨_, _, .inl ⟨f, f', hf, ?_, rfl⟩, hsound⟩
    exact hstep.mono fun hfull hw => hfull (hs.count hw)

/-- Every run of admitted calls, each for one of the open files, answers as the files say that the
objects stand for : a read delivers what was written at its place, and a call changes its own
file only. A file is given up only where a call reports an error of a drive that may fail, and as
long as none has, a write is short only where no free cluster is left. -/
theorem fileMachine_run (ops : List (ι × FileOp)) (hs : s.Sound d A whole chain table)
    (hops : (fileMachine d).Along (fun s op => (s.handle op.1).Admits op.2) s ops) :
    ∃ whole' chain' table', FileRun d whole s table ops whole' table' ∧
      ((fileMachine d).run s ops).Sound d A whole' chain' table' := by
  induction ops generalizing s chain table whole with
  | nil => exact ⟨whole, chain, table, .nil, hs⟩
  | cons op ops ih =>
    obtain ⟨hop, hrest⟩ := hops
    obtain ⟨answer, s', heq, chain₁, table₁, hstep, hsound⟩ :=
      returns_iff.1 (onFile_returns hs op.1 hop)
    have hmachine : (fileMachine d).step s op = (s', some answer) := by
      simp [fileMachine, heq]
    rw [hmachine] at hrest
    obtain ⟨whole', chain', table', hrun, hsound'⟩ := ih hsound hrest
    have hans : ((fileMachine d).step s op).2 = some answer := by rw [hmachine]
    rw [show s' = ((fileMachine d).step s op).1 by rw [hmachine]] at hstep hrun hsound'
    exact ⟨whole', chain', table', .cons hans hstep hrun, hsound'⟩

end Runs

/-- The object of the file of the sample volume. -/
def sampleFil : Fil where
  opened := true
  sclust := 2
  objsize := 5
  faRead := true
  faWrite := true
  faModified := true
  faDirty := false
  err := .frOk
  fptr := 0
  clust := 0
  sect := 0
  dirSect := 2
  dirPtr := 0
  buf := fun _ => 0

def sampleFile : File where
  data := [0, 1, 2, 3, 4]
  pos := 0
  canRead := true
  canWrite := true
  pos_le := by decide

/-- The root directory of the sample volume is in no cluster. -/
theorem sampleGeometry_dir {C : Set UInt32} : ¬ sampleGeometry.InClusters C 2 := by
  rintro ⟨c, -, k, hc, hk, heq⟩
  have hlow := (data_bounds sampleGeometry_wellFormed hc hk).1
  rw [← heq] at hlow
  exact absurd hlow (by decide)

theorem sampleFil_fits {P : Set UInt32} (h2 : 2 ∉ P) (h3 : 3 ∉ P) :
    Handle.Fits ramDisk P { vol := sampleVolume, fil := sampleFil } [2] where
  owned := by
    refine ⟨⟨sampleGeometry_wellFormed, sampleVolume_coherent, ?_, Link.leads_singleton.2 rfl⟩, ?_,
      fun c hc hcl => ?_, sampleGeometry_dir⟩
    · simp only [List.mem_singleton, forall_eq]
      decide
    · simpa using h2
    · obtain rfl | rfl := sampleVolume_clusters hcl
      · exact absurd hc h2
      · exact absurd hc h3
  start := rfl
  size := by decide
  pos := by decide
  dirty hd := absurd hd (by decide)
  clean _ p hp hs := by
    have hzero : p / 512 = 0 := Nat.div_eq_of_lt (lt_trans hp (by decide))
    rw [hzero] at hs
    exact absurd hs (by decide)

theorem sampleFil_holds {A P : Set UInt32} (h2 : 2 ∉ P) (h3 : 3 ∉ P) :
    Handle.Holds ramDisk A P { vol := sampleVolume, fil := sampleFil } [2] sampleFile where
  toFits := sampleFil_fits h2 h3
  at_ := ⟨fun h0 => absurd h0 (by decide), fun h0 => absurd h0 (by decide)⟩
  dir := ⟨by decide, by decide, sampleGeometry_dir, by decide⟩
  opened := rfl
  err := rfl
  data := by decide
  ptr := rfl
  canRead := rfl
  canWrite := rfl

/-- The sample volume with its file open. -/
def sampleFileSys : FileSys Unit (UInt32 → Sector) where
  vol := sampleVolume
  fil _ := sampleFil

theorem sampleFileSys_sound : sampleFileSys.Sound ramDisk ∅ True (fun _ => [2])
    fun _ => some sampleFile where
  geometry := sampleGeometry_wellFormed
  away := sampleGeometry_dir
  broken _ := sampleVolume_sound.not_broken
  count _ := sampleVolume_sound.count
  holds i f hf := by
    have hnone : ∀ c, c ∉ others ∅ (fun _ : Unit => [2]) (fun _ => some sampleFile) i := by
      rintro c (hc | ⟨j, hj, -⟩)
      · exact hc
      · exact hj rfl
    obtain rfl := Option.some.inj hf
    exact sampleFil_holds (hnone 2) (hnone 3)
  gone _ hno := absurd hno (by simp)

/-- Bytes are read and others written behind them, which a second look finds; then the file is
closed. -/
def sampleFileOps : List (Unit × FileOp) :=
  [((), .read 3), ((), .write [7, 8]), ((), .seek 2), ((), .read 9), ((), .close)]

theorem fileMachine_run_sample :
    (fileMachine ramDisk).answers sampleFileSys sampleFileOps =
        [some (.read .frOk [0, 1, 2]), some (.write .frOk 2), some (.done .frOk),
          some (.read .frOk [2, 7, 8]), some (.done .frOk)] ∧
      ∃ whole' table', FileRun ramDisk True sampleFileSys (fun _ => some sampleFile) sampleFileOps
        whole' table' := by
  refine ⟨by decide +kernel, ?_⟩
  have hseek : (2 : UInt32) ≤ ((((fileMachine ramDisk).run sampleFileSys
      (sampleFileOps.take 2)).handle ()).fil.objsize) := by decide +kernel
  have hclose : (((fileMachine ramDisk).run sampleFileSys
      (sampleFileOps.take 4)).handle ()).fil.err = .frOk := by decide +kernel
  obtain ⟨whole', chain', table', hrun, -⟩ := fileMachine_run sampleFileOps sampleFileSys_sound
    ⟨trivial, by simp [Handle.Admits], fun _ => hseek, trivial, hclose, trivial⟩
  exact ⟨whole', table', hrun⟩

end Gd32Firmware
