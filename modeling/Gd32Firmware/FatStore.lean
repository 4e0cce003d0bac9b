import Gd32Firmware.FatAlloc
import Gd32Firmware.Machine

/-!
# The chains of a volume

What `create_chain` and `remove_chain` mean for a cluster chain. `Volume.Turns` says that a chain
of the volume has become another one and nothing else has changed, the number of free clusters
staying right; it is what the functions leave if the drive does not fail. `Volume.Spares` says
that the other chains are still there; it is what they always leave.

`fatMachine_run` carries this to every run of calls for existing chains.
-/

namespace Gd32Firmware

open Program FatGeometry

variable {σ : Type}

/-! ## What a call leaves -/

/-- A cluster chain of the volume. -/
structure Volume.Chained (d : Storage σ) (v : Volume σ) (l : List UInt32) : Prop where
  geometry : v.fs.WellFormed
  coherent : v.Coherent d
  mem : ∀ c ∈ l, v.fs.IsCluster c
  leads : Link.Leads (v.link d) l

/-- In the FAT the chain `l` has become `l'`. -/
structure Volume.Relinks (d : Storage σ) (v v' : Volume σ) (l l' : List UInt32) : Prop where
  geometry : v'.fs.toFatGeometry = v.fs.toFatGeometry
  becomes : Link.Becomes (v.link d) (v'.link d) l l'
  cluster : ∀ c ∈ l', c ∉ l → v.fs.IsCluster c
  count : v.CountOk d → v'.CountOk d

/-- The chain `l` has become `l'`, and nothing else has changed. -/
structure Volume.Turns (d : Storage σ) (v v' : Volume σ) (l l' : List UInt32) : Prop
    extends Volume.Alters d v v', Volume.Relinks d v v' l l'

/-- The clusters in use outside `l` have their entries still. -/
structure Volume.Spares (d : Storage σ) (v v' : Volume σ) (l : List UInt32) : Prop
    extends Volume.Alters d v v' where
  link : ∀ c, v.fs.IsCluster c → c ∉ l → v.link d c ≠ .free → v'.link d c = v.link d c

/-- There is no free cluster. -/
def Volume.Full (d : Storage σ) (v : Volume σ) : Prop :=
  ∀ c, v.fs.IsCluster c → v.entry d c ≠ 0

/-- There is no free cluster, or none by the number that the volume keeps. -/
def Volume.NoRoom (d : Storage σ) (v : Volume σ) : Prop :=
  v.fs.freeClst = 0 ∨ v.Full d

/-- An entry that no chain has. -/
def Volume.Broken (d : Storage σ) (v : Volume σ) : Prop :=
  ∃ c, v.fs.IsCluster c ∧ v.entry d c = 1

section Chains

variable {d : Storage σ} {v v' v'' : Volume σ} {l l' l₁ l₂ : List UInt32} {a b c clst : UInt32}
  {k : ℕ}

/-- A cluster of a list and the one behind it. -/
theorem exists_append_next (ha : l[k]? = some a) (hb : l[k + 1]? = some b) :
    ∃ l₁ l₂, l = l₁ ++ a :: b :: l₂ := by
  obtain ⟨hk, rfl⟩ := List.getElem?_eq_some_iff.1 ha
  obtain ⟨hk', rfl⟩ := List.getElem?_eq_some_iff.1 hb
  refine ⟨l.take k, l.drop (k + 2), ?_⟩
  rw [← List.drop_eq_getElem_cons hk', ← List.drop_eq_getElem_cons hk, List.take_append_drop]

/-- The last cluster of a list. -/
theorem exists_append_last (ha : l[k]? = some a) (hk : k + 1 = l.length) :
    ∃ l₀, l = l₀ ++ [a] := by
  obtain ⟨hk', rfl⟩ := List.getElem?_eq_some_iff.1 ha
  refine ⟨l.take k, ?_⟩
  have hdrop : l.drop (k + 1) = [] := List.drop_of_length_le hk.ge
  rw [← hdrop, ← List.drop_eq_getElem_cons hk', List.take_append_drop]

namespace Volume

theorem Turns.spares (h : v.Turns d v' l l') : v.Spares d v' l :=
  ⟨h.toAlters, fun _ _ hc hused => h.becomes.eq_of_used hc hused⟩

theorem Relinks.trans {l'' : List UInt32} (h : v.Relinks d v' l l')
    (h' : v'.Relinks d v'' l' l'') : v.Relinks d v'' l l'' := by
  refine ⟨h'.geometry.trans h.geometry, h.becomes.trans h'.becomes, fun c hc hl => ?_,
    fun hv => h'.count (h.count hv)⟩
  by_cases hl' : c ∈ l'
  · exact h.cluster c hl' hl
  · rw [← h.geometry]
    exact h'.cluster c hc hl'

theorem Turns.trans {l'' : List UInt32} (h : v.Turns d v' l l')
    (h' : v'.Turns d v'' l' l'') : v.Turns d v'' l l'' := by
  have hr := h.toRelinks.trans h'.toRelinks
  exact ⟨h.toAlters.trans h'.toAlters, hr.becomes, hr.cluster, hr.count⟩

/-- The chain after the call. -/
theorem Chained.turns (h : v.Chained d l) (ht : v.Turns d v' l l') : v'.Chained d l' := by
  have hg := h.geometry
  rw [← ht.geometry] at hg
  refine ⟨hg, ht.coherent, fun c hc => ?_, ht.becomes.leads⟩
  rw [ht.geometry]
  by_cases hl : c ∈ l
  · exact h.mem c hl
  · exact ht.cluster c hc hl

theorem entry_of_view (hg : v'.fs.toFatGeometry = v.fs.toFatGeometry)
    (hview : v'.view d = v.view d) : v'.entry d = v.entry d := by
  funext c
  rw [entry, entry, hview, hg]

theorem link_of_entry (hg : v'.fs.toFatGeometry = v.fs.toFatGeometry)
    (hentry : v'.entry d = v.entry d) : v'.link d = v.link d := by
  funext c
  rw [link, link, hentry, hg]

/-- The same entries and the same number of free clusters. -/
theorem Relinks.of_entry (hl : Link.Leads (v.link d) l)
    (hg : v'.fs.toFatGeometry = v.fs.toFatGeometry) (hentry : v'.entry d = v.entry d)
    (hfree : v'.fs.freeClst = v.fs.freeClst) : v.Relinks d v' l l := by
  have hlink := link_of_entry hg hentry
  refine ⟨hg, ?_, fun c hc hc' => absurd hc hc', fun hv => ?_⟩
  · rw [hlink]
    exact .refl hl
  · rwa [CountOk, hg, hentry, hfree]

theorem Chained.stays (h : v.Chained d l) (halters : v.Alters d v')
    (hentry : v'.entry d = v.entry d) (halloc : v'.fs.alloc = v.fs.alloc) : v.Turns d v' l l := by
  have hr := Relinks.of_entry h.leads halters.geometry hentry (congrArg (fun a => a.2.1) halloc)
  exact ⟨halters, hr.becomes, hr.cluster, hr.count⟩

theorem Chained.reads (h : v.Chained d l) (hreads : v.Reads d v') : v.Turns d v' l l :=
  h.stays hreads.alters hreads.entry_eq hreads.alloc

theorem entry_congr (hwf : v.fs.WellFormed) (hg : v'.fs.toFatGeometry = v.fs.toFatGeometry)
    (hfat : ∀ s, v.fs.InFat s → v'.view d s = v.view d s) : v'.entry d = v.entry d := by
  funext c
  rw [entry, entry, hg, FatGeometry.entry, FatGeometry.entry, fatBytes_congr hwf hfat]

/-- The entry of a cluster that is followed by another one. -/
theorem Chained.entry_next (h : v.Chained d (l₁ ++ a :: b :: l₂)) : v.entry d a = b :=
  (link_eq_next h.leads.of_append.1).1

/-- The entry of the last cluster. -/
theorem Chained.entry_last (h : v.Chained d (l₁ ++ [a])) : v.fs.nFatent ≤ v.entry d a :=
  (link_eq_last h.geometry).1 h.leads.of_append

theorem Chained.entry_ne_zero (h : v.Chained d l) (ha : a ∈ l) : v.entry d a ≠ 0 :=
  fun h0 => h.leads.ne_free ha (link_eq_free.2 h0)

end Volume

/-- The number of free clusters, if it is right, is 0 only if there is none. -/
theorem Volume.NoRoom.full (h : v.NoRoom d) (hcount : v.CountOk d) : v.Full d := by
  intro c hc hfree
  obtain h0 | hfull := h
  · have hpos := freeCount_pos hc hfree
    have heq := hcount (by rw [h0]; exact UInt32.zero_le)
    rw [h0, UInt32.toNat_zero] at heq
    omega
  · exact hfull c hc hfree

theorem ne_zero_of_cluster {g : FatGeometry} (h : g.IsCluster c) : c ≠ 0 := by
  rintro rfl
  exact absurd h.1 (by decide)

/-- The entries are unchanged where the clusters were in use. -/
theorem Volume.Alters.spares (h : v.Alters d v')
    (hentry : ∀ c, v.fs.IsCluster c → c ∉ l → v.entry d c ≠ 0 → v'.entry d c = v.entry d c) :
    v.Spares d v' l := by
  refine ⟨h, fun c hcl hc hused => ?_⟩
  rw [Volume.link, Volume.link, h.geometry, hentry c hcl hc fun h0 => hused (link_eq_free.2 h0)]

/-- `create_chain` for a cluster that is followed by another one. -/
theorem createChain_follows (h : v.Chained d (l₁ ++ a :: b :: l₂)) :
    Returns (createChain d a) v fun val v' =>
      (val = b ∧ v.Reads d v') ∨
        (val = diskError ∧ ¬ d.Reliable ∧ v.Spares d v' (l₁ ++ a :: b :: l₂)) := by
  have hb := h.mem b (by simp)
  have hnext := h.entry_next
  refine (createChain_returns h.geometry h.coherent (.inr (h.mem a (by simp)))).imp ?_
  rintro val v' ⟨halters, ⟨-, hlow, -⟩ | ⟨-, -, rfl, hreads⟩ | ⟨hlast, -⟩ | ⟨rfl, hd, hother⟩⟩
  · rw [hnext] at hlow
    exact absurd hb.1 (UInt32.not_le.2 hlow)
  · exact .inl ⟨hnext, hreads⟩
  · have hle := hlast (ne_zero_of_cluster (h.mem a (by simp)))
    rw [hnext] at hle
    exact absurd hb.2 (UInt32.not_lt.2 hle)
  · refine .inr ⟨rfl, hd, halters.spares fun c _ hc hused => hother c hused ?_⟩
    rintro rfl
    exact hc (by simp)

/-- The new cluster ends its chain. -/
theorem Volume.Took.becomes (hg : v.fs.WellFormed) (ht : v.Took d v' clst c)
    (hend : (l = [] ∧ clst = 0) ∨ ∃ l₀, l = l₀ ++ [clst])
    (hl : v.Chained d l) : v.Turns d v' l (l ++ [c]) := by
  have hgeom := ht.alters.geometry
  have hlink : ∀ x, v'.link d x = v.fs.linkOf (v.fs.linked (v.entry d) clst c x) := by
    intro x
    rw [Volume.link, ht.entry, hgeom]
  have hfree : v.link d c = .free := link_eq_free.2 ht.free
  have hmask : v.fs.linkOf (0xFFFFFFFF &&& v.fs.fsType.mask) = .last :=
    (link_eq_last hg).2 (le_mask hg)
  refine ⟨ht.alters, ?_, fun x hx hxl => ?_, ht.count⟩
  swap
  · obtain rfl : x = c := by simpa [hxl] using hx
    exact ht.cluster
  obtain ⟨rfl, rfl⟩ | ⟨l₀, rfl⟩ := hend
  · refine .create hfree ?_ fun x hx => ?_ <;> rw [hlink]
    · simpa [linked] using hmask
    · rw [linked, if_neg (by simp), if_neg hx, Volume.link]
  · have hclst := hl.mem clst (by simp)
    have hne0 := ne_zero_of_cluster hclst
    have hne : c ≠ clst := by
      rintro rfl
      exact hl.entry_ne_zero (by simp) ht.free
    have hlast : v'.link d c = .last := by
      rw [hlink, linked, if_neg (fun h => hne h.2), if_pos rfl, hmask]
    have hnext : v'.link d clst = .next c := by
      rw [hlink, linked, if_pos ⟨hne0, rfl⟩, linkOf, if_neg (ne_zero_of_cluster ht.cluster),
        if_neg (UInt32.not_le.2 ht.cluster.2)]
    have happend := Link.Becomes.append hl.leads hfree hlast hnext fun x hx hx' => by
      rw [hlink, linked, if_neg (fun h => hx' h.2), if_neg hx, Volume.link]
    simpa using happend

/-- `create_chain` for the end of a chain, or for a new one. -/
theorem createChain_grows (h : v.Chained d l)
    (hend : (l = [] ∧ clst = 0) ∨ ∃ l₀, l = l₀ ++ [clst]) :
    Returns (createChain d clst) v fun val v' =>
      (val = 0 ∧ v.Turns d v' l l ∧ v'.NoRoom d) ∨ (val = 1 ∧ v.Turns d v' l l ∧ v.Broken d) ∨
        (v.fs.IsCluster val ∧ v.Turns d v' l (l ++ [val])) ∨
        (val = diskError ∧ ¬ d.Reliable ∧ v.Spares d v' l) := by
  have hg := h.geometry
  have hclst : clst = 0 ∨ (clst ≠ 0 ∧ v.fs.IsCluster clst ∧ v.fs.nFatent ≤ v.entry d clst) := by
    obtain ⟨-, rfl⟩ | ⟨l₀, rfl⟩ := hend
    · exact .inl rfl
    · have hcluster := h.mem clst (by simp)
      exact .inr ⟨ne_zero_of_cluster hcluster, hcluster, h.entry_last⟩
  refine (createChain_returns hg h.coherent (hclst.imp_right fun h => h.2.1)).imp ?_
  rintro val v' ⟨halters, ⟨hne, hlow, -⟩ | ⟨hne, hnext, rfl, -⟩ |
    ⟨-, ⟨rfl, hentry, halloc, hfull⟩ | ⟨rfl, hentry, halloc, hbad⟩ | htook⟩ | ⟨rfl, hd, hother⟩⟩
  · have hlast := (hclst.resolve_left hne).2.2
    have hmin := hg.minEntries
    rw [UInt32.lt_iff_toNat_lt] at hlow
    rw [UInt32.le_iff_toNat_le] at hlast
    simp only [UInt32.reduceToNat] at hlow
    omega
  · exact absurd hnext.2 (UInt32.not_lt.2 (hclst.resolve_left hne).2.2)
  · refine .inl ⟨rfl, h.stays halters hentry halloc, ?_⟩
    have hfree : v'.fs.freeClst = v.fs.freeClst := congrArg (fun a => a.2.1) halloc
    rwa [Volume.NoRoom, Volume.Full, hfree, hentry, halters.geometry]
  · exact .inr (.inl ⟨rfl, h.stays halters hentry halloc, hbad⟩)
  · exact .inr (.inr (.inl ⟨htook.cluster, htook.becomes hg hend h⟩))
  · refine .inr (.inr (.inr ⟨rfl, hd, halters.spares fun c hcl hc hused => hother c hused ?_⟩))
    obtain ⟨-, rfl⟩ | ⟨l₀, rfl⟩ := hend
    · exact ne_zero_of_cluster hcl
    · rintro rfl
      exact hc (by simp)

/-- The entry of a cluster that is not the last one of its chain. -/
theorem getFat_next (h : v.Chained d l) (ha : l[k]? = some a) (hk : k + 1 < l.length) :
    Returns (getFat d a) v fun val v' => v.Reads d v' ∧
      (l[k + 1]? = some val ∨ (val = diskError ∧ ¬ d.Reliable)) := by
  obtain ⟨l₁, l₂, heq⟩ := exists_append_next ha (List.getElem?_eq_getElem hk)
  have hnext : v.entry d a = l[k + 1] := by
    rw [heq] at h
    exact h.entry_next
  refine (getFat_returns h.geometry h.coherent (h.mem a (List.mem_of_getElem? ha))).imp ?_
  rintro val v' ⟨hr, rfl | hd⟩
  · refine ⟨hr, .inl ?_⟩
    rw [hnext]
    exact List.getElem?_eq_getElem hk
  · exact ⟨hr, .inr hd⟩

/-- `create_chain` for any cluster of a chain. -/
theorem createChain_next (h : v.Chained d l) (ha : l[k]? = some a) :
    Returns (createChain d a) v fun val v' =>
      (∃ r, v.fs.IsCluster val ∧ v.Turns d v' l (l ++ r) ∧ (l ++ r)[k + 1]? = some val ∧
          (k + 1 < l.length → r = [])) ∨
        (val = 0 ∧ k + 1 = l.length ∧ v.Turns d v' l l ∧ v'.NoRoom d) ∨
        (val = 1 ∧ v.Turns d v' l l ∧ v.Broken d) ∨
        (val = diskError ∧ ¬ d.Reliable ∧ v.Spares d v' l) := by
  by_cases hk : k + 1 = l.length
  · refine (createChain_grows h (.inr (exists_append_last ha hk))).imp ?_
    rintro val v' (⟨rfl, ht, hroom⟩ | hbroken | ⟨hval, ht⟩ | hd)
    · exact .inr (.inl ⟨rfl, hk, ht, hroom⟩)
    · exact .inr (.inr (.inl hbroken))
    · exact .inl ⟨[val], hval, ht, by simp [hk], fun hlt => absurd hk hlt.ne⟩
    · exact .inr (.inr (.inr hd))
  · have hlt : k + 1 < l.length := by
      have hle := (List.getElem?_eq_some_iff.1 ha).1
      omega
    obtain ⟨l₁, l₂, heq⟩ := exists_append_next ha (List.getElem?_eq_getElem hlt)
    have hchained := h
    rw [heq] at hchained
    refine (createChain_follows hchained).imp ?_
    rintro val v' (⟨rfl, hreads⟩ | ⟨rfl, hd, hs⟩)
    · refine .inl ⟨[], h.mem _ (List.getElem_mem hlt), ?_, ?_, fun _ => rfl⟩
      · rw [List.append_nil]
        exact h.reads hreads
      · rw [List.append_nil]
        exact List.getElem?_eq_getElem hlt
    · rw [← heq] at hs
      exact .inr (.inr (.inr ⟨rfl, hd, hs⟩))

/-- `remove_chain` for a whole chain. -/
theorem removeChain_releases (h : v.Chained d (a :: l)) :
    Returns (removeChain d a 0) v fun r v' =>
      (r = .frOk ∧ v.Turns d v' (a :: l) []) ∨
        (r = .frDiskErr ∧ ¬ d.Reliable ∧ v.Spares d v' (a :: l)) := by
  have ha := h.mem a (by simp)
  have hrange : ¬ (a < 2 ∨ v.fs.nFatent ≤ a) := by
    rintro (hlt | hle)
    · exact absurd ha.1 (UInt32.not_le.2 hlt)
    · exact absurd ha.2 (UInt32.not_lt.2 hle)
  unfold removeChain
  rw [returns_bind, returns_getFs, if_neg hrange, if_neg (by simp)]
  refine (removeLoop_chain h.geometry h.coherent h.mem h.leads).imp ?_
  rintro r v' ⟨halters, ⟨rfl, hentry, hcount⟩ | ⟨rfl, hd, hother⟩⟩
  · refine .inl ⟨rfl, halters, .release (fun c hc => ?_) (fun c hc => ?_), nofun, hcount⟩
    · rw [Volume.link, hentry, if_pos hc]
      exact link_eq_free.2 rfl
    · rw [Volume.link, Volume.link, hentry, if_neg hc, halters.geometry]
  · exact .inr ⟨rfl, hd, halters.spares fun c _ hc _ => hother c hc⟩

/-- `remove_chain` for what follows a cluster. -/
theorem removeChain_cuts (h : v.Chained d (l₁ ++ a :: b :: l₂)) :
    Returns (removeChain d b a) v fun r v' =>
      (r = .frOk ∧ v.Turns d v' (l₁ ++ a :: b :: l₂) (l₁ ++ [a])) ∨
        (r = .frDiskErr ∧ ¬ d.Reliable ∧ v.Spares d v' (l₁ ++ a :: b :: l₂)) := by
  have hg := h.geometry
  have ha := h.mem a (by simp)
  have hb := h.mem b (by simp)
  have hrange : ¬ (b < 2 ∨ v.fs.nFatent ≤ b) := by
    rintro (hlt | hle)
    · exact absurd hb.1 (UInt32.not_le.2 hlt)
    · exact absurd hb.2 (UInt32.not_lt.2 hle)
  unfold removeChain
  rw [returns_bind, returns_getFs, if_neg hrange, if_pos (ne_zero_of_cluster ha)]
  refine Returns.bind (putFat_entry hg h.coherent ha 0xFFFFFFFF) ?_
  rintro r v₁ ⟨halters, halloc, ⟨rfl, hentry⟩ | ⟨rfl, hd, hother⟩⟩
  swap
  · refine .inr ⟨rfl, hd, halters.spares fun c _ hc _ => hother c fun _ => ?_⟩
    rintro rfl
    exact hc (by simp)
  have hnodup := h.leads.nodup
  have hab : ∀ c ∈ b :: l₂, c ≠ a := by
    rintro c hc rfl
    exact (List.nodup_cons.1 (List.nodup_append.1 hnodup).2.1).1 hc
  have hlink : ∀ c, c ≠ a → v₁.link d c = v.link d c := by
    intro c hc
    rw [Volume.link, Volume.link, hentry c, if_neg hc, halters.geometry]
  have hg₁ := hg
  rw [← halters.geometry] at hg₁
  have hrest : Link.Leads (v₁.link d) (b :: l₂) :=
    h.leads.of_append.tail.congr fun c hc => hlink c (hab c hc)
  have hmem : ∀ c ∈ b :: l₂, v₁.fs.IsCluster c := by
    intro c hc
    rw [halters.geometry]
    exact h.mem c (by simp at hc ⊢; tauto)
  refine (removeLoop_chain hg₁ halters.coherent hmem hrest).imp ?_
  rintro r v' ⟨halters', ⟨rfl, hentry', hcount⟩ | ⟨rfl, hd, hother⟩⟩
  swap
  · refine .inr ⟨rfl, hd, (halters.trans halters').spares fun c _ hc _ => ?_⟩
    simp only [List.mem_append, List.mem_cons, not_or] at hc
    rw [hother c (by simpa using hc.2.2), hentry c, if_neg hc.2.1]
  have hgeom := (halters.trans halters').geometry
  have hmask : v.fs.linkOf (0xFFFFFFFF &&& v.fs.fsType.mask) = .last :=
    (link_eq_last hg).2 (le_mask hg)
  refine .inl ⟨rfl, halters.trans halters', .cut h.leads ?_ (fun c hc => ?_) (fun c hc hne => ?_),
    fun c hc hc' => absurd (by simp at hc ⊢; tauto) hc', fun hv => hcount ?_⟩
  · rw [Volume.link, hentry', if_neg (fun h => hab a h rfl), hentry, if_pos rfl, hgeom, hmask]
  · rw [Volume.link, hentry', if_pos hc]
    exact link_eq_free.2 rfl
  · rw [Volume.link, Volume.link, hentry', if_neg hc, hentry, if_neg hne, hgeom]
  · have hfree : v₁.fs.freeClst = v.fs.freeClst := congrArg (fun a => a.2.1) halloc
    have hzero : ∀ c, v.fs.IsCluster c → (v₁.entry d c = 0 ↔ v.entry d c = 0) := by
      intro c hc
      rw [← link_eq_free (v := v), ← link_eq_free (v := v), hentry c]
      by_cases hca : c = a
      · rw [if_pos hca, hmask, hca]
        exact iff_of_false (by simp) (h.leads.ne_free (by simp))
      · rw [if_neg hca]
    rw [Volume.CountOk, halters.geometry, hfree, freeCount_congr hzero]
    exact hv

end Chains

/-! ## Runs -/

/-- A call of `create_chain` or `remove_chain`. -/
inductive FatOp where
  | stretch (clst : UInt32)
  | remove (clst pclst : UInt32)

def fatOp (d : Storage σ) : FatOp → Program (Volume σ) (UInt32 ⊕ FResult)
  | .stretch clst => do pure (.inl (← createChain d clst))
  | .remove clst pclst => do pure (.inr (← removeChain d clst pclst))

/-- One call after the other. -/
def fatMachine (d : Storage σ) : Machine (Volume σ) FatOp (Option (UInt32 ⊕ FResult)) where
  step v op := ((exec (fatOp d op) v).2, (exec (fatOp d op) v).1)

/-- The call is one for an existing chain : a chain is begun or made longer, a whole one is
given back, or what follows a cluster. -/
def Volume.Admits (d : Storage σ) (v : Volume σ) : FatOp → Prop
  | .stretch clst => clst = 0 ∨ (v.fs.IsCluster clst ∧ v.entry d clst ≠ 0)
  | .remove clst pclst => v.fs.IsCluster clst ∧
    if pclst = 0 then v.entry d clst ≠ 0 ∧ ∀ c, v.fs.IsCluster c → v.entry d c ≠ clst
    else v.fs.IsCluster pclst ∧ v.entry d pclst = clst

/-- An answer that reports an error of the drive. -/
def DriveFailed (answer : Option (UInt32 ⊕ FResult)) : Prop :=
  answer = some (.inl diskError) ∨ answer = some (.inr .frDiskErr)

/-- What a call does to the chains of a volume, of which each has the number of its first
cluster as its index. -/
inductive ChainStep (g : FatGeometry) (chain : UInt32 → List UInt32) :
    FatOp → UInt32 ⊕ FResult → (UInt32 → List UInt32) → Prop where
  /-- There is a next cluster already. -/
  | follow {i clst val : UInt32} {l₁ l₂ : List UInt32} (hi : chain i = l₁ ++ clst :: val :: l₂) :
      ChainStep g chain (.stretch clst) (.inl val) chain
  /-- There is no next cluster, and all clusters are in chains. -/
  | full {clst : UInt32} (hend : clst = 0 ∨ ∃ i l, chain i = l ++ [clst])
      (hfull : ∀ c, g.IsCluster c → ∃ i, c ∈ chain i) :
      ChainStep g chain (.stretch clst) (.inl 0) chain
  | first {val : UInt32} (hval : g.IsCluster val) (hfree : ∀ i, val ∉ chain i) :
      ChainStep g chain (.stretch 0) (.inl val) (Function.update chain val [val])
  | longer {i clst val : UInt32} {l : List UInt32} (hi : chain i = l ++ [clst])
      (hval : g.IsCluster val) (hfree : ∀ i, val ∉ chain i) :
      ChainStep g chain (.stretch clst) (.inl val) (Function.update chain i (l ++ [clst, val]))
  | release {clst : UInt32} {l : List UInt32} (hi : chain clst = clst :: l) :
      ChainStep g chain (.remove clst 0) (.inr .frOk) (Function.update chain clst [])
  | cut {i clst pclst : UInt32} {l₁ l₂ : List UInt32} (hi : chain i = l₁ ++ pclst :: clst :: l₂) :
      ChainStep g chain (.remove clst pclst) (.inr .frOk) (Function.update chain i (l₁ ++ [pclst]))

/-- One call after the other, each with its answer. -/
inductive ChainRun (g : FatGeometry) :
    (UInt32 → List UInt32) → List (FatOp × Option (UInt32 ⊕ FResult)) →
      (UInt32 → List UInt32) → Prop where
  | nil {chain : UInt32 → List UInt32} : ChainRun g chain [] chain
  | cons {chain chain' chain'' : UInt32 → List UInt32} {op : FatOp} {r : UInt32 ⊕ FResult}
      {log : List (FatOp × Option (UInt32 ⊕ FResult))} (hstep : ChainStep g chain op r chain')
      (hrest : ChainRun g chain' log chain'') : ChainRun g chain ((op, some r) :: log) chain''

/-- The clusters of the volume are divided between the chains and the free clusters, and the
number of the latter is right. -/
structure Volume.Sound (d : Storage σ) (v : Volume σ) (chain : UInt32 → List UInt32) : Prop where
  geometry : v.fs.WellFormed
  coherent : v.Coherent d
  holds : Link.Holds {c | v.fs.IsCluster c} (v.link d) chain
  complete : Link.Complete {c | v.fs.IsCluster c} (v.link d) chain
  head : ∀ i, ∀ a ∈ (chain i).head?, a = i
  count : v.CountOk d

section Runs

variable {d : Storage σ} {v v' : Volume σ} {chain : UInt32 → List UInt32} {l : List UInt32}
  {c i : UInt32}

namespace Volume.Sound

theorem chained (h : v.Sound d chain) (i : UInt32) : v.Chained d (chain i) :=
  ⟨h.geometry, h.coherent, h.holds.mem i, h.holds.leads i⟩

/-- A cluster in use is somewhere in a chain. -/
theorem exists_append (h : v.Sound d chain) (hc : v.fs.IsCluster c) (hused : v.entry d c ≠ 0) :
    ∃ i l₁ l₂, chain i = l₁ ++ c :: l₂ := by
  obtain ⟨i, hi⟩ := h.complete c hc fun h0 => hused (link_eq_free.1 h0)
  obtain ⟨l₁, l₂, heq⟩ := List.append_of_mem hi
  exact ⟨i, l₁, l₂, heq⟩

theorem free_iff (h : v.Sound d chain) (hc : v.fs.IsCluster c) :
    v.entry d c = 0 ↔ ∀ i, c ∉ chain i := by
  constructor
  · exact fun hfree i hi => (h.chained i).entry_ne_zero hi hfree
  · intro hnone
    by_contra hused
    obtain ⟨i, hi⟩ := h.complete c hc fun h0 => hused (link_eq_free.1 h0)
    exact hnone i hi

theorem not_broken (h : v.Sound d chain) : ¬ v.Broken d := by
  rintro ⟨c, hc, h1⟩
  obtain ⟨i, l₁, l₂, hi⟩ := h.exists_append hc (by rw [h1]; decide)
  have hchained := h.chained i
  rw [hi] at hchained
  cases l₂ with
  | nil =>
    have hlast := hchained.entry_last
    have hmin := h.geometry.minEntries
    rw [h1, UInt32.le_iff_toNat_le, UInt32.toNat_one] at hlast
    omega
  | cons b l₂ =>
    have hb := hchained.mem b (by simp)
    rw [← hchained.entry_next, h1] at hb
    exact absurd hb.1 (by decide)

/-- A volume without room has all its clusters in chains. -/
theorem full (h : v.Sound d chain) (hroom : v.NoRoom d) :
    ∀ c, v.fs.IsCluster c → ∃ i, c ∈ chain i :=
  fun c hc => h.complete c hc fun hfree => hroom.full h.count c hc (link_eq_free.1 hfree)

/-- One chain is changed. -/
theorem turns (h : v.Sound d chain) (ht : v.Turns d v' (chain i) l)
    (hhead : ∀ a ∈ l.head?, a = i) : v'.Sound d (Function.update chain i l) := by
  have hl := (h.chained i).turns ht
  have hmem := hl.mem
  rw [ht.geometry] at hmem
  refine ⟨hl.geometry, hl.coherent, ?_, ?_, fun j a ha => ?_, ht.count h.count⟩
  · rw [ht.geometry]
    exact ht.becomes.holds h.holds hmem
  · rw [ht.geometry]
    exact ht.becomes.complete h.complete
  · by_cases hj : j = i
    · subst hj
      rw [Function.update_self] at ha
      exact hhead a ha
    · rw [Function.update_of_ne hj] at ha
      exact h.head j a ha

/-- Nothing is changed. -/
theorem stays (h : v.Sound d chain) (ht : v.Turns d v' (chain i) (chain i)) :
    v'.Sound d chain := by
  have hsound := h.turns ht (h.head i)
  rwa [Function.update_eq_self] at hsound

end Volume.Sound

/-- No chain has the index 0. -/
theorem Volume.Sound.chain_zero (h : v.Sound d chain) : chain 0 = [] := by
  cases hchain : chain 0 with
  | nil => rfl
  | cons a l =>
    have ha := h.head 0 a (by simp [hchain])
    have hcl := h.holds.mem 0 a (by simp [hchain])
    exact absurd ha (ne_zero_of_cluster hcl)

/-- A cluster that no chain has is no index either. -/
theorem Volume.Sound.chain_fresh (h : v.Sound d chain) (hc : ∀ i, c ∉ chain i) : chain c = [] := by
  cases hchain : chain c with
  | nil => rfl
  | cons a l =>
    obtain rfl := h.head c a (by simp [hchain])
    exact absurd (by simp [hchain]) (hc a)

/-- The cluster at the end of a chain that has been made longer. -/
theorem Volume.Sound.fresh (h : v.Sound d chain) (hc : v.fs.IsCluster c)
    (ht : v.Turns d v' l (l ++ [c])) : ∀ i, c ∉ chain i := by
  have hnew : c ∉ l := by
    intro hl
    have hnodup := ht.becomes.leads.nodup
    exact (List.nodup_append.1 hnodup).2.2 c hl c (by simp) rfl
  exact (h.free_iff hc).1 (link_eq_free.1 (ht.becomes.fresh c (by simp) hnew))

/-- What one call does. -/
theorem fatOp_returns (h : v.Sound d chain) (op : FatOp) (hop : v.Admits d op) :
    Returns (fatOp d op) v fun r v' =>
      v'.fs.toFatGeometry = v.fs.toFatGeometry ∧
        ((DriveFailed (some r) ∧ ¬ d.Reliable) ∨
          ∃ chain', ChainStep v.fs.toFatGeometry chain op r chain' ∧ v'.Sound d chain') := by
  cases op with
  | stretch clst =>
    unfold fatOp
    rw [returns_bind]
    obtain rfl | ⟨hcl, hused⟩ := hop
    · have hnil := h.chained 0
      refine (createChain_grows hnil (.inl ⟨h.chain_zero, rfl⟩)).imp ?_
      rintro val v' (⟨rfl, ht, hroom⟩ | ⟨-, -, hbad⟩ | ⟨hval, ht⟩ | ⟨rfl, hd, hs⟩)
      · have hsound := h.stays ht
        have hfull := hsound.full hroom
        rw [ht.geometry] at hfull
        exact ⟨ht.geometry, .inr ⟨chain, .full (.inl rfl) hfull, hsound⟩⟩
      · exact absurd hbad h.not_broken
      · have hnone := h.fresh hval ht
        rw [h.chain_zero, ← h.chain_fresh hnone] at ht
        refine ⟨ht.geometry, .inr ⟨_, .first hval hnone, h.turns (l := [val]) ?_ (by simp)⟩⟩
        simpa [h.chain_fresh hnone] using ht
      · exact ⟨hs.geometry, .inl ⟨.inl rfl, hd⟩⟩
    · obtain ⟨i, l₁, l₂, hi⟩ := h.exists_append hcl hused
      have hchained := h.chained i
      cases l₂ with
      | nil =>
        refine (createChain_grows hchained (.inr ⟨l₁, hi⟩)).imp ?_
        rintro val v' (⟨rfl, ht, hroom⟩ | ⟨-, -, hbad⟩ | ⟨hval, ht⟩ | ⟨rfl, hd, hs⟩)
        · have hsound := h.stays ht
          have hfull := hsound.full hroom
          rw [ht.geometry] at hfull
          exact ⟨ht.geometry, .inr ⟨chain, .full (.inr ⟨i, l₁, hi⟩) hfull, hsound⟩⟩
        · exact absurd hbad h.not_broken
        · have happend : l₁ ++ [clst, val] = chain i ++ [val] := by simp [hi]
          refine ⟨ht.geometry, .inr ⟨_, .longer hi hval (h.fresh hval ht), ?_⟩⟩
          rw [happend]
          refine h.turns ht fun a ha => h.head i a ?_
          cases l₁ <;> simpa [hi] using ha
        · exact ⟨hs.geometry, .inl ⟨.inl rfl, hd⟩⟩
      | cons b l₂ =>
        rw [hi] at hchained
        refine (createChain_follows hchained).imp ?_
        rintro val v' (⟨rfl, hreads⟩ | ⟨rfl, hd, hs⟩)
        · have ht := hchained.reads hreads
          rw [← hi] at ht
          exact ⟨ht.geometry, .inr ⟨chain, .follow hi, h.stays ht⟩⟩
        · exact ⟨hs.geometry, .inl ⟨.inl rfl, hd⟩⟩
  | remove clst pclst =>
    unfold fatOp
    rw [returns_bind]
    obtain ⟨hcl, hop⟩ := hop
    by_cases h0 : pclst = 0
    · subst h0
      rw [if_pos rfl] at hop
      obtain ⟨i, l₁, l₂, hi⟩ := h.exists_append hcl hop.1
      have hchained := h.chained i
      -- the cluster is the first one of its chain, as no other one leads to it
      obtain rfl | ⟨l₀, b, rfl⟩ := List.eq_nil_or_concat' l₁
      swap
      · rw [hi, List.append_assoc] at hchained
        exact absurd hchained.entry_next (hop.2 b (hchained.mem b (by simp)))
      obtain rfl : clst = i := h.head i clst (by simp [hi])
      rw [hi, List.nil_append] at hchained
      refine (removeChain_releases hchained).imp ?_
      rintro r v' (⟨rfl, ht⟩ | ⟨rfl, hd, hs⟩)
      · rw [List.nil_append] at hi
        rw [← hi] at ht
        exact ⟨ht.geometry, .inr ⟨_, .release hi, h.turns ht nofun⟩⟩
      · exact ⟨hs.geometry, .inl ⟨.inr rfl, hd⟩⟩
    · rw [if_neg h0] at hop
      obtain ⟨hp, hnext⟩ := hop
      have hused : v.entry d pclst ≠ 0 := by
        rw [hnext]
        exact ne_zero_of_cluster hcl
      obtain ⟨i, l₁, l₂, hi⟩ := h.exists_append hp hused
      have hchained := h.chained i
      rw [hi] at hchained
      cases l₂ with
      | nil =>
        have hlast := hchained.entry_last
        rw [hnext] at hlast
        exact absurd hcl.2 (UInt32.not_lt.2 hlast)
      | cons b l₂ =>
        obtain rfl : b = clst := hchained.entry_next.symm.trans hnext
        refine (removeChain_cuts hchained).imp ?_
        rintro r v' (⟨rfl, ht⟩ | ⟨rfl, hd, hs⟩)
        · rw [← hi] at ht
          refine ⟨ht.geometry, .inr ⟨_, .cut hi, h.turns ht fun a ha => h.head i a ?_⟩⟩
          cases l₁ <;> simpa [hi] using ha
        · exact ⟨hs.geometry, .inl ⟨.inr rfl, hd⟩⟩

/-- As long as the drive keeps to its contract and reports no error, every run of calls of
`create_chain` and `remove_chain` for existing chains does to the chains what `ChainStep` says :
no cluster is in two chains, none is lost, the number of free clusters stays right, and a chain
that cannot be made longer says that there is no free cluster. -/
theorem fatMachine_run (ops : List FatOp) (h : v.Sound d chain)
    (hops : (fatMachine d).Along (Volume.Admits d) v ops) :
    (¬ d.Reliable ∧ ∃ r ∈ (fatMachine d).answers v ops, DriveFailed r) ∨
      ∃ chain', ChainRun v.fs.toFatGeometry chain (ops.zip ((fatMachine d).answers v ops)) chain' ∧
        ((fatMachine d).run v ops).Sound d chain' := by
  induction ops generalizing v chain with
  | nil => exact .inr ⟨chain, .nil, h⟩
  | cons op ops ih =>
    obtain ⟨hop, hrest⟩ := hops
    obtain ⟨r, v', heq, hgeom, hr⟩ := returns_iff.1 (fatOp_returns h op hop)
    have hstep : (fatMachine d).step v op = (v', some r) := by simp [fatMachine, heq]
    simp only [Machine.answers, Machine.run_cons, hstep, List.zip_cons_cons, List.mem_cons,
      exists_eq_or_imp] at hrest ⊢
    obtain ⟨hfail, hd⟩ | ⟨chain', hchain, hsound⟩ := hr
    · exact .inl ⟨hd, .inl hfail⟩
    obtain ⟨hd, hfail⟩ | ⟨chain'', hrun, hsound'⟩ := ih hsound hrest
    · exact .inl ⟨hd, .inr hfail⟩
    · rw [hgeom] at hrun
      exact .inr ⟨chain'', .cons hchain hrun, hsound'⟩

/-- The chains of the sample volume. -/
def sampleChain (i : UInt32) : List UInt32 :=
  if i = 2 then [2] else []

theorem mem_sampleChain {i a : UInt32} : a ∈ sampleChain i ↔ i = 2 ∧ a = 2 := by
  unfold sampleChain
  split_ifs with hi <;> simp [hi]

theorem sampleVolume_clusters {c : UInt32} (hc : sampleVolume.fs.IsCluster c) : c = 2 ∨ c = 3 := by
  obtain ⟨hlow, hhigh⟩ := isCluster_toNat.1 hc
  have hn : sampleVolume.fs.nFatent.toNat = 4 := rfl
  obtain h | h : c.toNat = 2 ∨ c.toNat = 3 := by omega
  · exact .inl (UInt32.toNat_inj.1 h)
  · exact .inr (UInt32.toNat_inj.1 h)

theorem sampleVolume_sound : sampleVolume.Sound ramDisk sampleChain where
  geometry := sampleGeometry_wellFormed
  coherent := sampleVolume_coherent
  holds.mem i a ha := by
    obtain ⟨-, rfl⟩ := mem_sampleChain.1 ha
    exact (by decide : sampleVolume.fs.IsCluster 2)
  holds.leads i := by
    unfold sampleChain
    split_ifs
    · exact Link.leads_singleton.2 rfl
    · exact Link.leads_nil
  holds.disjoint i j hij a ha ha' :=
    hij ((mem_sampleChain.1 ha).1.trans (mem_sampleChain.1 ha').1.symm)
  complete c hc hused := by
    obtain rfl | rfl := sampleVolume_clusters hc
    · exact ⟨2, mem_sampleChain.2 ⟨rfl, rfl⟩⟩
    · exact absurd rfl hused
  head i a ha := by
    obtain ⟨rfl, rfl⟩ := mem_sampleChain.1 (List.mem_of_mem_head? ha)
    rfl
  count _ := by decide

/-- The chain of the file is made longer and cut again, and a new one is begun. -/
def sampleFatOps : List FatOp :=
  [.stretch 2, .remove 3 2, .stretch 0]

theorem fatMachine_run_sample :
    (fatMachine ramDisk).answers sampleVolume sampleFatOps =
        [some (.inl 3), some (.inr .frOk), some (.inl 3)] ∧
      ∃ chain', ChainRun sampleGeometry sampleChain
        (sampleFatOps.zip ((fatMachine ramDisk).answers sampleVolume sampleFatOps)) chain' := by
  refine ⟨by decide +kernel, ?_⟩
  have hremove : ((fatMachine ramDisk).step sampleVolume (.stretch 2)).1.Admits ramDisk
      (.remove 3 2) := by
    refine ⟨by decide +kernel, ?_⟩
    rw [if_neg (by decide)]
    exact ⟨by decide +kernel, by decide +kernel⟩
  obtain ⟨hd, -⟩ | ⟨chain', hrun, -⟩ := fatMachine_run (d := ramDisk) sampleFatOps
    sampleVolume_sound ⟨.inr (by decide), hremove, .inl rfl, trivial⟩
  · exact absurd ramDisk_reliable hd
  · exact ⟨chain', hrun⟩

end Runs

end Gd32Firmware
