import Shawk.ProcFiles

/-!
# What `BuildUserEntries` records

Over a static `/proc` (`fun _ => tree`: every call sees the same tree), the map that
`BuildUserEntries` returns is an overlay of the tree's socket links.  `scanLinks` lists the fd
links the scan reads, in its order: the root entries sorted by name, the PID directories
among them other than the probe's own, and in each the fd entries sorted by name.  A link to
a nonzero socket inode writes the entry `fdEntry` gives it, and a later link to the same
socket replaces it, so each key holds the entry of its last link
(`buildUserEntries_overlay`).  Hence every entry records a socket link, with the name, parent
and group `parseProcStat` reads for its PID, and every socket link is a key
(`buildUserEntries_static`).

The scan returns a map exactly when the root reads and every PID directory it enters reads
without an error the code does not absorb (`buildUserEntries_ok_iff`).

Each of the three loops has a step lemma, which says what one item does to the map, and a run
lemma, which chains the steps into the overlay; a second run lemma builds the successful run
from the readable tree.

While processes exit, a PID that vanishes after the root lists it fails the scan at five of
its six reads (`buildUserEntries_exiting`).
-/

namespace Shawk.Netutil

open Shawk.Go

/-! ### Links to sockets -/

/-- The fd entry `n` of `<name>/fd` reads as the fd `fd` and links to the nonzero socket
    inode `i`. -/
structure FdLink (tree : ProcTree) (name n : String) (fd : Int) (i : UInt32) : Prop where
  fd_eq : atoi n.data = some fd
  link : ∃ lnk, tree.readlink name n = .ok lnk ∧ parseSocketInode lnk = .ok i
  ne_zero : i ≠ 0

/-- The root entry `d` links to the socket `i` at its fd entry `n`: `d` is a directory named
    by the PID `pid`, other than `selfPid`, whose `fd` is a readable directory listing `n`. -/
structure SocketLink (tree : ProcTree) (selfPid : Int) (d : DirEntry) (pid : Int) (n : String)
    (fd : Int) (i : UInt32) : Prop where
  isDir : d.isDir = true
  pid_eq : atoi d.name.data = some pid
  not_self : pid ≠ selfPid
  fdDir : tree.statFd d.name = .ok true
  listed : ∃ names, tree.fdListing d.name = .ok names ∧ n ∈ names
  fdLink : FdLink tree d.name n fd i

/-- The entry the fd entry `n` of the PID directory `name` of the PID `pid` writes for the
    socket `i`: when `n` reads as an fd and links to the nonzero inode `i`, that fd, the PID,
    and the name, parent and group `parseProcStat` reads. -/
def fdEntry (tree : ProcTree) (name : String) (pid : Int) (n : String) (i : UInt32) :
    Option UserEnt :=
  match atoi n.data, tree.readlink name n with
  | some fd, .ok lnk =>
    match parseSocketInode lnk, parseProcStat (fun _ => tree) 0 pid with
    | .ok ino, .ok s =>
      if ino = i ∧ i ≠ 0 then some ⟨i, fd, pid, s.pname, s.ppid, s.pgrp⟩ else none
    | _, _ => none
  | _, _ => none

/-- The fd entries the scan of the PID directory `name` reads: the sorted listing of its `fd`,
    when that is a readable directory. -/
def pidFds (tree : ProcTree) (name : String) : List String :=
  match tree.statFd name, tree.fdListing name with
  | .ok true, .ok names => names
  | _, _ => []

/-- The PID of a root entry the scan enters: a directory whose name `Atoi` reads as a PID
    other than `self`. -/
def scannedPid (self : Int) (d : DirEntry) : Option Int :=
  if d.isDir = false then none
  else match atoi d.name.data with
    | some pid => if pid = self then none else some pid
    | none => none

/-- The fd links the scan reads, in its order: each root entry it enters, and in it each fd
    entry. -/
def scanLinks (tree : ProcTree) (self : Int) (ds : List DirEntry) : List (DirEntry × String) :=
  ds.flatMap fun d => match scannedPid self d with
    | some _ => (pidFds tree d.name).map (d, ·)
    | none => []

/-- The entry a link of `scanLinks` writes for the socket `i`. -/
def linkEntry (tree : ProcTree) (self : Int) (l : DirEntry × String) (i : UInt32) :
    Option UserEnt :=
  match scannedPid self l.1 with
  | some pid => fdEntry tree l.1.name pid l.2 i
  | none => none

theorem fdEntry_eq_some {tree : ProcTree} {name : String} {pid : Int} {n : String}
    {i : UInt32} {e : UserEnt} (h : fdEntry tree name pid n i = some e) :
    FdLink tree name n e.fd i ∧ e.inode = i ∧ e.pid = pid ∧
      parseProcStat (fun _ => tree) 0 pid = .ok ⟨e.pname, e.ppid, e.pgrp⟩ := by
  unfold fdEntry at h
  split at h
  · next fd lnk hfd hl =>
    split at h
    · next ino s hino hs =>
      split at h
      · next hi =>
        cases h
        exact ⟨⟨hfd, ⟨lnk, hl, hi.1 ▸ hino⟩, hi.2⟩, rfl, rfl, hs⟩
      · cases h
    · cases h
  · cases h

theorem fdEntry_isSome {tree : ProcTree} {name : String} {pid : Int} {n : String} {fd : Int}
    {i : UInt32} {s : ProcStat} (hl : FdLink tree name n fd i)
    (hs : parseProcStat (fun _ => tree) 0 pid = .ok s) : (fdEntry tree name pid n i).isSome := by
  obtain ⟨hfd, ⟨lnk, hlnk, hi⟩, h0⟩ := hl
  simp [fdEntry, hfd, hlnk, hi, hs, h0]

theorem scannedPid_eq_some {self pid : Int} {d : DirEntry} :
    scannedPid self d = some pid ↔ d.isDir = true ∧ atoi d.name.data = some pid ∧ pid ≠ self := by
  unfold scannedPid
  cases d.isDir
  · simp
  · cases atoi d.name.data with
    | none => simp
    | some p => by_cases hs : p = self <;> simp [hs] <;> omega

theorem mem_sortNames {names : List String} {n : String} : n ∈ sortNames names ↔ n ∈ names :=
  (List.mergeSort_perm names _).mem_iff

theorem mem_sortEntries {dir : List DirEntry} {d : DirEntry} : d ∈ sortEntries dir ↔ d ∈ dir :=
  (List.mergeSort_perm dir _).mem_iff

theorem mem_pidFds {tree : ProcTree} {name n : String} :
    n ∈ pidFds tree name ↔
      tree.statFd name = .ok true ∧ ∃ names, tree.fdListing name = .ok names ∧ n ∈ names := by
  unfold pidFds
  split
  · next names hfd hr => simp [hfd, hr]
  · next hne =>
    constructor
    · intro h; cases h
    · rintro ⟨hfd, names, hr, -⟩
      exact (hne names hfd hr).elim

theorem mem_scanLinks {tree : ProcTree} {self : Int} {ds : List DirEntry} {d : DirEntry}
    {n : String} :
    (d, n) ∈ scanLinks tree self ds ↔
      d ∈ ds ∧ (∃ pid, scannedPid self d = some pid) ∧ n ∈ pidFds tree d.name := by
  simp only [scanLinks, List.mem_flatMap]
  constructor
  · rintro ⟨d', hd', hl⟩
    split at hl
    · next pid hpid =>
      obtain ⟨n', hn', he⟩ := List.mem_map.mp hl
      cases he
      exact ⟨hd', ⟨pid, hpid⟩, hn'⟩
    · cases hl
  · rintro ⟨hd, ⟨pid, hpid⟩, hn⟩
    exact ⟨d, hd, by rw [hpid]; exact List.mem_map_of_mem _ hn⟩

/-! ### The overlay of links -/

/-- Write the entries `w` gives, item after item: a later item's entry for a socket replaces
    an earlier one. -/
def overlay {α : Type} (w : α → UInt32 → Option UserEnt) (xs : List α) (ents : UserEnts) :
    UserEnts :=
  xs.foldl (fun ents x i => (w x i).or (ents i)) ents

section Overlay

variable {α β : Type} {w : α → UInt32 → Option UserEnt} {ents : UserEnts}

@[simp] theorem overlay_nil : overlay w [] ents = ents := rfl

@[simp] theorem overlay_cons (x : α) (xs : List α) :
    overlay w (x :: xs) ents = overlay w xs fun i => (w x i).or (ents i) := rfl

theorem overlay_append (xs ys : List α) :
    overlay w (xs ++ ys) ents = overlay w ys (overlay w xs ents) :=
  List.foldl_append _ _ _ _

theorem overlay_map (f : β → α) (ys : List β) :
    overlay w (ys.map f) ents = overlay (fun y => w (f y)) ys ents :=
  List.foldl_map _ _ _ _

/-- Each key holds the entry of the last item that writes it, or else its old entry. -/
theorem overlay_apply (xs : List α) (i : UInt32) :
    overlay w xs ents i = (xs.reverse.findSome? fun x => w x i).or (ents i) := by
  induction xs generalizing ents with
  | nil => rfl
  | cons x xs ih =>
    rw [overlay_cons, ih, List.reverse_cons, List.findSome?_append, Option.or_assoc,
      List.findSome?_cons, List.findSome?_nil]
    cases w x i <;> rfl

end Overlay

/-! ### Reading without error -/

/-- The fd entry `n` of the PID directory `name` of the PID `pid` reads without error: it is
    no fd number, or its link has vanished, or its link parses, and a link to a socket finds
    the PID's `stat` readable. -/
def FdReadable (tree : ProcTree) (name : String) (pid : Int) (n : String) : Prop :=
  atoi n.data = none ∨ tree.readlink name n = .error ENOENT ∨
    ∃ lnk ino, tree.readlink name n = .ok lnk ∧ parseSocketInode lnk = .ok ino ∧
      (ino ≠ 0 → ∃ s, parseProcStat (fun _ => tree) 0 pid = .ok s)

/-- The PID directory `name` of the PID `pid` reads without error: its `fd` stats, and when
    that is a directory, `ReadDir` of it is refused with `EACCES` or each of its fd entries
    reads without error. -/
def PidReadable (tree : ProcTree) (name : String) (pid : Int) : Prop :=
  ∃ b, tree.statFd name = .ok b ∧ (b = true → tree.fdListing name = .pathError EACCES ∨
    ∃ names, tree.fdListing name = .ok names ∧ ∀ n ∈ names, FdReadable tree name pid n)

/-- The stat cache of the fd loop holds what `parseProcStat` reads. -/
def StatCached (tree : ProcTree) (pid : Int) (st : Option ProcStat) : Prop :=
  ∀ s, st = some s → parseProcStat (fun _ => tree) 0 pid = .ok s

section Static

variable {tree : ProcTree} {name : String} {pid : Int}

/-- A socket link of an fd entry that reads without error writes an entry. -/
theorem FdReadable.fdEntry_isSome {n : String} {fd : Int} {i : UInt32}
    (hr : FdReadable tree name pid n) (hl : FdLink tree name n fd i) :
    (fdEntry tree name pid n i).isSome := by
  obtain ⟨hfd, ⟨lnk, hlnk, hi⟩, h0⟩ := hl
  rcases hr with hr | hr | ⟨lnk', ino, hlnk', hino, hs⟩
  · simp [hfd] at hr
  · simp [hlnk] at hr
  · rw [hlnk, Except.ok.injEq] at hlnk'
    subst hlnk'
    rw [hi, Except.ok.injEq] at hino
    subst hino
    obtain ⟨s, hs⟩ := hs h0
    simp [fdEntry, hfd, hlnk, hi, hs, h0]

theorem PidReadable.fdReadable {n : String} (hr : PidReadable tree name pid)
    (hn : n ∈ pidFds tree name) : FdReadable tree name pid n := by
  obtain ⟨hfd, names, hnames, hn⟩ := mem_pidFds.mp hn
  obtain ⟨b, hb, hr⟩ := hr
  rw [hfd, Except.ok.injEq] at hb
  rcases hr hb.symm with he | ⟨names', hnames', hr⟩
  · rw [hnames] at he; cases he
  · rw [hnames, ReadDirResult.ok.injEq] at hnames'
    exact hr n (hnames' ▸ hn)

/-! ### The loops over a static tree -/

/-- The fd entry `n`, which links to the socket `ino`, writes its entry as `setUserEnt` does. -/
theorem overlay_fdEntry_write {n : String} {fd : Int} {lnk : Bytes} {ino : UInt32}
    {s : ProcStat} {ents : UserEnts} (hfd : atoi n.data = some fd)
    (hl : tree.readlink name n = .ok lnk) (hino : parseSocketInode lnk = .ok ino)
    (h0 : ino ≠ 0) (hs : parseProcStat (fun _ => tree) 0 pid = .ok s) :
    overlay (fdEntry tree name pid) [n] ents = setUserEnt ents ino fd pid s := by
  funext i
  by_cases hi : ino = i
  · subst hi
    simp [fdEntry, hfd, hl, hino, hs, h0, setUserEnt]
  · simp [fdEntry, hfd, hl, hino, hs, hi, setUserEnt, Ne.symm hi]

/-- An fd entry that links to no socket writes nothing. -/
theorem overlay_fdEntry_skip {n : String} {ents : UserEnts}
    (hn : ∀ fd i, ¬ FdLink tree name n fd i) : overlay (fdEntry tree name pid) [n] ents = ents := by
  funext i
  cases he : fdEntry tree name pid n i with
  | none => simp [he]
  | some e => exact absurd (fdEntry_eq_some he).1 (hn _ _)

/-- One fd of the loop: its entry `n` reads without error and writes what `fdEntry` gives;
    the loop goes on from there with the stat cache kept. -/
theorem scanFds_cons_static {n : String} {ns : List String} {t : Nat} {st : Option ProcStat}
    {ents : UserEnts} {r : UserEnts × Nat} (hst : StatCached tree pid st)
    (h : scanFds (fun _ => tree) name pid (n :: ns) t st ents = .ok r) :
    ∃ t₁ st₁, scanFds (fun _ => tree) name pid ns t₁ st₁
        (overlay (fdEntry tree name pid) [n] ents) = .ok r ∧
      StatCached tree pid st₁ ∧ FdReadable tree name pid n := by
  have skip : ∀ t₁, scanFds (fun _ => tree) name pid ns t₁ st ents = .ok r →
      (∀ fd i, ¬ FdLink tree name n fd i) → FdReadable tree name pid n →
      ∃ t₁ st₁, scanFds (fun _ => tree) name pid ns t₁ st₁
        (overlay (fdEntry tree name pid) [n] ents) = .ok r ∧ StatCached tree pid st₁ ∧
        FdReadable tree name pid n :=
    fun t₁ h hn hr => ⟨t₁, st, by rwa [overlay_fdEntry_skip hn], hst, hr⟩
  rw [scanFds] at h
  split at h
  · next hfd => exact skip t h (fun _ _ hl => nomatch hfd.symm.trans hl.fd_eq) (.inl hfd)
  · next fd hfd =>
    split at h
    · next e hl =>
      split at h
      · next he =>
        exact skip (t + 1) h (fun _ _ ⟨_, ⟨_, hl', _⟩, _⟩ => nomatch hl.symm.trans hl')
          (.inr (.inl (he ▸ hl)))
      · cases h
    · next lnk hl =>
      split at h
      · cases h
      · next ino hino =>
        split at h
        · next h0 =>
          refine skip (t + 1) h (fun _ _ ⟨_, ⟨_, hl', hi⟩, hne⟩ => hne ?_)
            (.inr (.inr ⟨lnk, ino, hl, hino, fun h => absurd h0 h⟩))
          cases hl.symm.trans hl'
          exact (Except.ok.inj (hi.symm.trans hino)).trans h0
        · next h0 =>
          split at h
          · next s =>
            exact ⟨t + 1, some s, by rwa [overlay_fdEntry_write hfd hl hino h0 (hst s rfl)], hst,
              .inr (.inr ⟨lnk, ino, hl, hino, fun _ => ⟨s, hst s rfl⟩⟩)⟩
          · split at h
            · cases h
            · next s hs =>
              exact ⟨t + 3, some s, by rwa [overlay_fdEntry_write hfd hl hino h0 hs],
                fun _ e => Option.some.inj e ▸ hs, .inr (.inr ⟨lnk, ino, hl, hino, fun _ => ⟨s, hs⟩⟩)⟩

/-- The fd loop over a static tree writes the overlay of its fd entries, each of which reads
    without error. -/
theorem scanFds_static {ns : List String} {t : Nat} {st : Option ProcStat}
    {ents ents' : UserEnts} {t' : Nat} (hst : StatCached tree pid st)
    (h : scanFds (fun _ => tree) name pid ns t st ents = .ok (ents', t')) :
    ents' = overlay (fdEntry tree name pid) ns ents ∧ ∀ n ∈ ns, FdReadable tree name pid n := by
  induction ns generalizing t st ents with
  | nil =>
    cases h
    exact ⟨rfl, fun _ hn => absurd hn (List.not_mem_nil _)⟩
  | cons n ns ih =>
    obtain ⟨t₁, st₁, h₁, hst₁, hn⟩ := scanFds_cons_static hst h
    obtain ⟨rfl, hr⟩ := ih hst₁ h₁
    exact ⟨rfl, fun m hm => (List.mem_cons.mp hm).elim (· ▸ hn) (hr m)⟩

theorem readDirFd_static_eq (tree : ProcTree) (name : String) (t : Nat) :
    readDirFd (fun _ => tree) name t = (tree.fdListing name, (readDirFd (fun _ => tree) name t).2) :=
  Prod.ext (readDirFd_static tree name t) rfl

/-- The scan of one PID directory over a static tree reads it without error and writes the
    overlay of the fd entries of its readable `fd` directory. -/
theorem scanPid_static {t t' : Nat} {ents ents' : UserEnts}
    (h : scanPid (fun _ => tree) name pid t ents = .ok (ents', t')) :
    ents' = overlay (fdEntry tree name pid) (pidFds tree name) ents ∧
      PidReadable tree name pid := by
  unfold scanPid at h
  split at h
  · cases h
  · next hfd =>
    cases h
    exact ⟨by simp [pidFds, hfd], false, hfd, nofun⟩
  · next hfd =>
    split at h
    · next e t₁ hr =>
      have hl := (readDirFd_static tree name (t + 1)).symm.trans (congrArg Prod.fst hr)
      split at h
      · next he =>
        cases h
        exact ⟨by simp [pidFds, hfd, hl], true, hfd, fun _ => .inl (he ▸ hl)⟩
      · cases h
    · cases h
    · next names t₁ hr =>
      have hl := (readDirFd_static tree name (t + 1)).symm.trans (congrArg Prod.fst hr)
      obtain ⟨rfl, hn⟩ := scanFds_static (fun _ e => by cases e) h
      exact ⟨by simp [pidFds, hfd, hl], true, hfd, fun _ => .inr ⟨names, hl, hn⟩⟩

/-- One root entry of the loop: the scan of its PID directory, if it enters one, reads it
    without error and writes the links of `scanLinks` for it; the loop goes on from there. -/
theorem scanPids_cons_static {self : Int} {d : DirEntry} {ds : List DirEntry} {t : Nat}
    {ents : UserEnts} {r : UserEnts × Nat}
    (h : scanPids (fun _ => tree) self (d :: ds) t ents = .ok r) :
    ∃ t₁, scanPids (fun _ => tree) self ds t₁
        (overlay (linkEntry tree self) (scanLinks tree self [d]) ents) = .ok r ∧
      ∀ pid, scannedPid self d = some pid → PidReadable tree d.name pid := by
  have skip : scannedPid self d = none →
      scanPids (fun _ => tree) self ds t ents = .ok r → ∃ t₁, scanPids (fun _ => tree) self ds t₁
        (overlay (linkEntry tree self) (scanLinks tree self [d]) ents) = .ok r ∧
      ∀ pid, scannedPid self d = some pid → PidReadable tree d.name pid := fun hd h => by
    have hl : scanLinks tree self [d] = [] := by simp [scanLinks, hd]
    rw [hl]
    exact ⟨t, h, fun _ h' => by simp [hd] at h'⟩
  rw [scanPids] at h
  split at h
  · next hdir => exact skip (by simp [scannedPid, hdir]) h
  · next hdir =>
    split at h
    · next hpid => exact skip (by simp [scannedPid, hdir, hpid]) h
    · next pid hpid =>
      split at h
      · next hself => exact skip (by simp [scannedPid, hdir, hpid, hself]) h
      · next hself =>
        split at h
        · cases h
        · next ents₁ t₁ hscan =>
          have hd : scannedPid self d = some pid :=
            scannedPid_eq_some.mpr ⟨by simpa using hdir, hpid, hself⟩
          have hl : scanLinks tree self [d] = (pidFds tree d.name).map (d, ·) := by
            simp [scanLinks, hd]
          have hw : (fun n => linkEntry tree self (d, n)) = fdEntry tree d.name pid := by
            funext n i
            simp [linkEntry, hd]
          obtain ⟨rfl, hr⟩ := scanPid_static hscan
          exact ⟨t₁, by rwa [hl, overlay_map, hw], fun _ h' => by
            rw [hd, Option.some.injEq] at h'
            exact h' ▸ hr⟩

/-- The PID loop over a static tree reads every PID directory it enters without error and
    writes the overlay of the links it reads. -/
theorem scanPids_static {self : Int} {ds : List DirEntry} {t t' : Nat} {ents ents' : UserEnts}
    (h : scanPids (fun _ => tree) self ds t ents = .ok (ents', t')) :
    ents' = overlay (linkEntry tree self) (scanLinks tree self ds) ents ∧
      ∀ d ∈ ds, ∀ pid, scannedPid self d = some pid → PidReadable tree d.name pid := by
  induction ds generalizing t ents with
  | nil =>
    cases h
    exact ⟨rfl, fun _ hd => absurd hd (List.not_mem_nil _)⟩
  | cons d ds ih =>
    obtain ⟨t₁, h₁, hd⟩ := scanPids_cons_static h
    obtain ⟨rfl, hr⟩ := ih h₁
    have hsplit : scanLinks tree self (d :: ds) = scanLinks tree self [d] ++ scanLinks tree self ds :=
      List.flatMap_append [d] ds _
    rw [hsplit, overlay_append]
    exact ⟨rfl, fun d' hd' => (List.mem_cons.mp hd').elim (· ▸ hd) (hr d')⟩

/-- The map of a static scan that succeeds is the overlay of the links it reads, and every
    PID directory it enters reads without error. -/
theorem buildUserEntries_scan {self : Int} {ents : UserEnts}
    (h : buildUserEntries (fun _ => tree) self = .ok ents) :
    ∃ dir, tree.root = .ok dir ∧
      ents = overlay (linkEntry tree self) (scanLinks tree self (sortEntries dir)) (fun _ => none) ∧
      ∀ d ∈ dir, ∀ pid, scannedPid self d = some pid → PidReadable tree d.name pid := by
  unfold buildUserEntries at h
  split at h
  · cases h
  · next dir hdir =>
    obtain ⟨⟨ents', t'⟩, hscan, rfl⟩ : ∃ r, scanPids (fun _ => tree) self (sortEntries dir) 1
        (fun _ => none) = .ok r ∧ r.1 = ents := by
      revert h
      cases scanPids (fun _ => tree) self (sortEntries dir) 1 fun _ => none <;>
        simp [Except.map]
    obtain ⟨rfl, hr⟩ := scanPids_static hscan
    exact ⟨dir, hdir, rfl, fun d hd => hr d (mem_sortEntries.mpr hd)⟩

/-! ### The loops succeed on a readable tree -/

/-- The fd loop over a static tree succeeds when each of its fd entries reads without error. -/
theorem scanFds_ok {ns : List String} {t : Nat} {st : Option ProcStat} {ents : UserEnts}
    (hst : StatCached tree pid st) (hr : ∀ n ∈ ns, FdReadable tree name pid n) :
    ∃ r, scanFds (fun _ => tree) name pid ns t st ents = .ok r := by
  induction ns generalizing t st ents with
  | nil => exact ⟨_, rfl⟩
  | cons n ns ih =>
    have hr' := fun m hm => hr m (List.mem_cons_of_mem n hm)
    rw [scanFds]
    rcases hr n (List.mem_cons_self n ns) with hfd | hl | ⟨lnk, ino, hl, hino, hs⟩
    · simp only [hfd]
      exact ih hst hr'
    · cases atoi n.data
      · exact ih hst hr'
      · simp only [hl, if_true]
        exact ih hst hr'
    · cases atoi n.data
      · exact ih hst hr'
      · simp only [hl, hino]
        by_cases h0 : ino = 0
        · simp only [h0, if_true]
          exact ih hst hr'
        · simp only [h0, if_false]
          cases st with
          | some s => exact ih hst hr'
          | none =>
            obtain ⟨s, hs⟩ := hs h0
            rw [parseProcStat_static, hs]
            exact ih (fun _ e => Option.some.inj e ▸ hs) hr'

/-- The scan of a PID directory that reads without error succeeds. -/
theorem scanPid_ok {t : Nat} {ents : UserEnts} (hr : PidReadable tree name pid) :
    ∃ r, scanPid (fun _ => tree) name pid t ents = .ok r := by
  obtain ⟨b, hb, hr⟩ := hr
  unfold scanPid
  cases b with
  | false => exact ⟨_, by rw [hb]⟩
  | true =>
    rw [hb, readDirFd_static_eq]
    rcases hr rfl with he | ⟨names, hnames, hn⟩
    · exact ⟨_, by simp only [he, if_true]; rfl⟩
    · simp only [hnames]
      exact scanFds_ok (fun _ e => by cases e) hn

/-- The PID loop over a static tree succeeds when every PID directory it enters reads without
    error. -/
theorem scanPids_ok {self : Int} {ds : List DirEntry} {t : Nat} {ents : UserEnts}
    (hr : ∀ d ∈ ds, ∀ pid, scannedPid self d = some pid → PidReadable tree d.name pid) :
    ∃ r, scanPids (fun _ => tree) self ds t ents = .ok r := by
  induction ds generalizing t ents with
  | nil => exact ⟨_, rfl⟩
  | cons d ds ih =>
    have hr' := fun d' hd' => hr d' (List.mem_cons_of_mem d hd')
    rw [scanPids]
    split
    · exact ih hr'
    · next hdir =>
      split
      · exact ih hr'
      · next pid hpid =>
        split
        · exact ih hr'
        · next hself =>
          obtain ⟨⟨ents₁, t₁⟩, hscan⟩ := @scanPid_ok tree d.name pid t ents
            (hr d (List.mem_cons_self d ds) pid
              (scannedPid_eq_some.mpr ⟨by simpa using hdir, hpid, hself⟩))
          rw [hscan]
          exact ih hr'

end Static

/-! ### `BuildUserEntries` -/

/-- Over a static tree, `BuildUserEntries` returns a map exactly when the root reads and
    every PID directory it enters reads without error: no `stat` of an `fd` fails, no listing
    fails other than with `EACCES`, no fd link fails other than with `ENOENT`, every link
    parses, and the `stat` of every PID with a socket link reads. -/
theorem buildUserEntries_ok_iff (tree : ProcTree) (self : Int) :
    (∃ ents, buildUserEntries (fun _ => tree) self = .ok ents) ↔
      ∃ dir, tree.root = .ok dir ∧
        ∀ d ∈ dir, ∀ pid, scannedPid self d = some pid → PidReadable tree d.name pid := by
  constructor
  · rintro ⟨ents, h⟩
    obtain ⟨dir, hdir, -, hr⟩ := buildUserEntries_scan h
    exact ⟨dir, hdir, hr⟩
  · rintro ⟨dir, hdir, hr⟩
    obtain ⟨⟨ents, t⟩, h⟩ := @scanPids_ok tree self (sortEntries dir) 1 (fun _ => none)
      fun d hd => hr d (mem_sortEntries.mp hd)
    exact ⟨ents, by simp [buildUserEntries, hdir, h, Except.map]⟩

/-- The scan of `oneFdTree` with the link of the socket 77 records it for the PID 4242. -/
theorem buildUserEntries_oneFdTree :
    buildUserEntries (fun _ => oneFdTree (utf8 "socket:[77]".data)) 1 =
      .ok (setUserEnt (fun _ => none) 77 3 4242 ⟨"nc", 1, 4242⟩) := by
  simp only [buildUserEntries, oneFdTree, sortEntries_singleton, scanPids, scanPid, readDirFd,
    readDirResult, lstatNames, Except.map, sortNames_singleton]
  rfl

/-- Over a static tree, the map `BuildUserEntries` returns records exactly the socket links of
    the tree.  Each entry under a key `i` is attested by a link to the socket `i` from an fd of
    a PID directory other than `self`, and carries what `parseProcStat` reads for that PID.
    Every such link to a nonzero inode gives a key. -/
theorem buildUserEntries_static (tree : ProcTree) (self : Int) {ents : UserEnts}
    (h : buildUserEntries (fun _ => tree) self = .ok ents) :
    ∃ dir, tree.root = .ok dir ∧
      (∀ i e, ents i = some e → e.inode = i ∧
        (∃ d ∈ dir, ∃ n, SocketLink tree self d e.pid n e.fd i) ∧
        parseProcStat (fun _ => tree) 0 e.pid = .ok ⟨e.pname, e.ppid, e.pgrp⟩) ∧
      ∀ d ∈ dir, ∀ pid n fd i, SocketLink tree self d pid n fd i → (ents i).isSome := by
  obtain ⟨dir, hdir, rfl, hr⟩ := buildUserEntries_scan h
  refine ⟨dir, hdir, fun i e he => ?_, fun d hd pid n fd i hl => ?_⟩
  · rw [overlay_apply, Option.or_none] at he
    obtain ⟨⟨d, n⟩, hl, he⟩ := List.exists_of_findSome?_eq_some he
    obtain ⟨hd, ⟨pid, hpid⟩, hn⟩ := mem_scanLinks.mp (List.mem_reverse.mp hl)
    simp only [linkEntry, hpid] at he
    obtain ⟨hfd, hi, rfl, hs⟩ := fdEntry_eq_some he
    obtain ⟨hdir', hpid', hself⟩ := scannedPid_eq_some.mp hpid
    obtain ⟨hstat, hlisted⟩ := mem_pidFds.mp hn
    exact ⟨hi, ⟨d, mem_sortEntries.mp hd, n, hdir', hpid', hself, hstat, hlisted, hfd⟩, hs⟩
  · have hpid : scannedPid self d = some pid :=
      scannedPid_eq_some.mpr ⟨hl.isDir, hl.pid_eq, hl.not_self⟩
    have hn : n ∈ pidFds tree d.name := mem_pidFds.mpr ⟨hl.fdDir, hl.listed⟩
    have hmem : (d, n) ∈ scanLinks tree self (sortEntries dir) :=
      mem_scanLinks.mpr ⟨mem_sortEntries.mpr hd, ⟨pid, hpid⟩, hn⟩
    have hw : (linkEntry tree self (d, n) i).isSome := by
      simp only [linkEntry, hpid]
      exact ((hr d hd pid hpid).fdReadable hn).fdEntry_isSome hl.fdLink
    rw [overlay_apply, Option.or_none]
    exact List.findSome?_isSome_iff.mpr ⟨(d, n), List.mem_reverse.mpr hmem, hw⟩

theorem buildUserEntries_static_oneFd :
    buildUserEntries (fun _ => oneFdTree (utf8 "socket:[77]".data)) 1 =
        .ok (setUserEnt (fun _ => none) 77 3 4242 ⟨"nc", 1, 4242⟩) ∧
      ∃ dir, (oneFdTree (utf8 "socket:[77]".data)).root = .ok dir ∧
        (∀ i e, setUserEnt (fun _ => none) 77 3 4242 ⟨"nc", 1, 4242⟩ i = some e →
          e.inode = i ∧ (∃ d ∈ dir, ∃ n, SocketLink (oneFdTree (utf8 "socket:[77]".data)) 1 d e.pid n e.fd i) ∧
          parseProcStat (fun _ => oneFdTree (utf8 "socket:[77]".data)) 0 e.pid = .ok ⟨e.pname, e.ppid, e.pgrp⟩) ∧
        ∀ d ∈ dir, ∀ pid n fd i, SocketLink (oneFdTree (utf8 "socket:[77]".data)) 1 d pid n fd i →
          (setUserEnt (fun _ => none) 77 3 4242 ⟨"nc", 1, 4242⟩ i).isSome := by
  exact ⟨buildUserEntries_oneFdTree, buildUserEntries_static _ 1 buildUserEntries_oneFdTree⟩

/-! ### Exiting processes -/

/-- The PID `4242` exits after the root lists it.  When it vanishes before the scan stats its
    `fd` directory, opens it, lists it, or opens or reads its `stat` file, `BuildUserEntries`
    fails: with `ENOENT`, with the panic of `getdents`'s error, or with `ESRCH`. -/
theorem buildUserEntries_exiting :
    buildUserEntries ((oneFdTree (utf8 "socket:[77]".data)).exiting fun _ => some 1) 1 =
        .error (.stat "4242" ENOENT) ∧
      buildUserEntries ((oneFdTree (utf8 "socket:[77]".data)).exiting fun _ => some 2) 1 =
        .error (.readDir "4242" ENOENT) ∧
      buildUserEntries ((oneFdTree (utf8 "socket:[77]".data)).exiting fun _ => some 3) 1 =
        .error (.readDirPanic "4242" ENOENT) ∧
      buildUserEntries ((oneFdTree (utf8 "socket:[77]".data)).exiting fun _ => some 5) 1 =
        .error (.openStat 4242 ENOENT) ∧
      buildUserEntries ((oneFdTree (utf8 "socket:[77]".data)).exiting fun _ => some 6) 1 =
        .error (.readStat 4242 ESRCH) := by
  have hpid : atoi "4242".data = some 4242 := rfl
  refine ⟨?_, ?_, ?_, ?_, ?_⟩ <;>
    simp +decide only [buildUserEntries, ProcTree.exiting, ProcTree.without, oneFdTree, Except.map,
      scanPids, scanPid, readDirFd, readDirResult, lstatNames, hpid, List.filter_cons,
      List.filter_nil, if_true, if_false, sortEntries_singleton, sortNames_singleton]
  all_goals rfl

end Shawk.Netutil
