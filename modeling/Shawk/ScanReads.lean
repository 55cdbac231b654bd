import Shawk.ProcScan
import Shawk.Attribution
import Shawk.ProcfsFlows

/-!
# `BuildUserEntries` while `/proc` changes

`/proc` changes while the scan walks it: processes exit and sockets open and close between
two reads, so the map `BuildUserEntries` returns need not picture `/proc` at any one step,
and a process that exits at the wrong moment fails the scan.
What holds over every run that returns a map is that each entry rests on reads the scan made
(`buildUserEntries_read`): the root listed a directory named by the entry's PID, not the
probe's own; a listing of its `fd` named, and `lstat` found, an fd entry named by the entry's
fd, whose link went to the socket of the entry's key; and a read of the PID's `stat` gave the
entry's name, parent and group.

The invariant `EntriesRead` holds of the empty map, one write keeps it
(`EntriesRead.setUserEnt`), and each loop keeps it by induction over its own recursion.

The scan fails while processes exit, but only so: over a tree it reads without error, with
processes exiting at any steps, each failure is an `ENOENT` from the stat of the `fd` of a PID
directory that exits or from the open of that `fd`, the panic of `getdents`'s `ENOENT` on it,
or, for a PID whose directory exits, an `ENOENT` from the open of its `stat` or an `ESRCH`
from the read (`buildUserEntries_exiting_error`); a link that vanishes is skipped.

Through the flow builder, this carries over to the processes on the flows: over every host,
each process `GetHostFlows` puts on a flow is the name and group of an entry the scan read,
for the socket of a connection aggregated into the flow or of a listener on its port
(`getHostFlows_process_read`).  The procfs fallback puts no process on a flow.
-/

namespace Shawk.Netutil

open Shawk.Go

/-! ### What an entry rests on -/

/-- The root, read at the scan's first step, lists `d`: a directory named by the PID `pid`,
    other than the probe's own `self`. -/
structure PidDirRead (fs : ProcFs) (self : Int) (d : DirEntry) (pid : Int) : Prop where
  root : ∃ dir, (fs 0).root = .ok dir ∧ d ∈ dir
  isDir : d.isDir = true
  pid_eq : atoi d.name.data = some pid
  not_self : pid ≠ self

/-- A listing of `<name>/fd`, at some step of the scan, named `n`, and `lstat` found it. -/
def FdListed (fs : ProcFs) (name n : String) : Prop :=
  ∃ t, (n, .ok ()) ∈ ((fs t).listFd name).1

/-- What the scan read for the entry `e` under the key `i`: a PID directory the root listed,
    an fd entry of it that a listing held and whose link, at some step, went to the socket `i`,
    and a read of the PID's `stat` that gave the entry's name, parent and group. -/
structure EntryRead (fs : ProcFs) (self : Int) (i : UInt32) (e : UserEnt) : Prop where
  inode : e.inode = i
  link : ∃ d n, PidDirRead fs self d e.pid ∧ FdListed fs d.name n ∧
    ∃ t, FdLink (fs t) d.name n e.fd i
  stat : ∃ t, parseProcStat fs t e.pid = .ok ⟨e.pname, e.ppid, e.pgrp⟩

/-- Every entry of the map rests on what the scan read. -/
def EntriesRead (fs : ProcFs) (self : Int) (ents : UserEnts) : Prop :=
  ∀ i e, ents i = some e → EntryRead fs self i e

section Scan

variable {fs : ProcFs} {self : Int}

theorem entriesRead_empty : EntriesRead fs self fun _ => none := fun _ _ h => nomatch h

theorem mem_of_lstatNames {l : List (String × Except Errno Unit)} {kept : List String}
    (h : lstatNames l = .ok kept) {n : String} (hn : n ∈ kept) : (n, .ok ()) ∈ l := by
  induction l generalizing kept with
  | nil => cases h; cases hn
  | cons p l ih =>
    obtain ⟨m, _ | ⟨⟩⟩ := p
    · simp only [lstatNames] at h
      split_ifs at h
      exact List.mem_cons_of_mem _ (ih h hn)
    · simp only [lstatNames] at h
      cases hl : lstatNames l with
      | error e => rw [hl] at h; cases h
      | ok kept' =>
        rw [hl] at h
        cases h
        rcases List.mem_cons.mp hn with rfl | hn
        · exact List.mem_cons_self _ _
        · exact List.mem_cons_of_mem _ (ih hl hn)

/-- Every name `ReadDir` of an fd directory returns was listed and found by `lstat`. -/
theorem readDirFd_ok_listed {name : String} {t t' : Nat} {names : List String}
    (h : readDirFd fs name t = (.ok names, t')) {n : String} (hn : n ∈ names) :
    FdListed fs name n := by
  unfold readDirFd at h
  split at h
  · cases h
  · refine ⟨t + 1, ?_⟩
    have hr := congrArg Prod.fst h
    dsimp only at hr
    unfold readDirResult at hr
    split at hr
    · cases hr
    · cases hr
    · next kept hk _ =>
      cases hr
      exact mem_of_lstatNames hk (mem_sortNames.mp hn)

/-- The step: writing an entry that rests on reads keeps the invariant. -/
theorem EntriesRead.setUserEnt {ents : UserEnts} (h : EntriesRead fs self ents) {ino : UInt32}
    {fd pid : Int} {s : ProcStat}
    (hnew : EntryRead fs self ino ⟨ino, fd, pid, s.pname, s.ppid, s.pgrp⟩) :
    EntriesRead fs self (setUserEnt ents ino fd pid s) := by
  intro i e he
  unfold Shawk.Netutil.setUserEnt at he
  split at he
  · next hi => subst hi; cases he; exact hnew
  · exact h i e he

/-- The fd loop of a PID directory the root listed keeps the invariant, over every listing
    and whatever the PID's `stat` read before. -/
theorem scanFds_read {d : DirEntry} {pid : Int} (hd : PidDirRead fs self d pid)
    {ns : List String} {t : Nat} {st : Option ProcStat} {ents : UserEnts} {r : UserEnts × Nat}
    (hns : ∀ n ∈ ns, FdListed fs d.name n)
    (hst : ∀ s, st = some s → ∃ t, parseProcStat fs t pid = .ok s)
    (hents : EntriesRead fs self ents) (h : scanFds fs d.name pid ns t st ents = .ok r) :
    EntriesRead fs self r.1 := by
  induction ns, t, st, ents using scanFds.induct fs d.name pid with
  | case1 t st ents =>
    cases h
    exact hents
  | case2 n ns t st ents hn ih =>
    simp only [scanFds, hn] at h
    exact ih (fun n' h' => hns n' (List.mem_cons_of_mem n h')) hst hents h
  | case3 n ns t st ents fd hn hl ih =>
    simp only [scanFds, hn, hl, if_true] at h
    exact ih (fun n' h' => hns n' (List.mem_cons_of_mem n h')) hst hents h
  | case4 n ns t st ents fd hn e hl he =>
    simp only [scanFds, hn, hl, he, if_false, reduceCtorEq] at h
  | case5 n ns t st ents fd hn body hl f hi =>
    simp only [scanFds, hn, hl, hi, reduceCtorEq] at h
  | case6 n ns t st ents fd hn body hl hi ih =>
    simp only [scanFds, hn, hl, hi, if_true] at h
    exact ih (fun n' h' => hns n' (List.mem_cons_of_mem n h')) hst hents h
  | case7 n ns t ents fd hn body hl ino hi h0 s ih =>
    simp only [scanFds, hn, hl, hi, h0, if_false] at h
    refine ih (fun n' h' => hns n' (List.mem_cons_of_mem n h')) hst
      (hents.setUserEnt ⟨rfl, ⟨d, n, hd, hns n (List.mem_cons_self n ns), t,
        ⟨hn, ⟨body, hl, hi⟩, h0⟩⟩, hst s rfl⟩) h
  | case8 n ns t ents fd hn body hl ino hi h0 e hs =>
    simp only [scanFds, hn, hl, hi, h0, hs, if_false, reduceCtorEq] at h
  | case9 n ns t ents fd hn body hl ino hi h0 s hs ih =>
    simp only [scanFds, hn, hl, hi, h0, hs, if_false] at h
    have hst' : ∀ s', some s = some s' → ∃ t, parseProcStat fs t pid = .ok s' :=
      fun s' hs' => ⟨t + 1, Option.some.inj hs' ▸ hs⟩
    exact ih (fun n' h' => hns n' (List.mem_cons_of_mem n h')) hst'
      (hents.setUserEnt ⟨rfl, ⟨d, n, hd, hns n (List.mem_cons_self n ns), t,
        ⟨hn, ⟨body, hl, hi⟩, h0⟩⟩, ⟨t + 1, hs⟩⟩) h

/-- One PID directory the root listed keeps the invariant: its fd loop runs over a listing the
    scan read. -/
theorem scanPid_read {d : DirEntry} {pid : Int} (hd : PidDirRead fs self d pid) {t : Nat}
    {ents : UserEnts} {r : UserEnts × Nat} (hents : EntriesRead fs self ents)
    (h : scanPid fs d.name pid t ents = .ok r) : EntriesRead fs self r.1 := by
  unfold scanPid at h
  split at h
  · cases h
  · cases h
    exact hents
  · split at h
    · split at h
      · cases h
        exact hents
      · cases h
    · cases h
    · next names t' hr =>
      exact scanFds_read hd (fun n hn => readDirFd_ok_listed hr hn)
        (fun _ h => Option.noConfusion h) hents h

/-- The PID loop over entries the root listed keeps the invariant. -/
theorem scanPids_read {ds : List DirEntry}
    (hds : ∀ d ∈ ds, ∃ dir, (fs 0).root = .ok dir ∧ d ∈ dir) {t : Nat} {ents : UserEnts}
    {r : UserEnts × Nat} (hents : EntriesRead fs self ents)
    (h : scanPids fs self ds t ents = .ok r) : EntriesRead fs self r.1 := by
  induction ds, t, ents using scanPids.induct fs self with
  | case1 t ents =>
    cases h
    exact hents
  | case2 d ds t ents hdir ih =>
    simp only [scanPids, hdir, if_true] at h
    exact ih (fun d' h' => hds d' (List.mem_cons_of_mem d h')) hents h
  | case3 d ds t ents hdir hpid ih =>
    simp only [scanPids, hdir, hpid, if_false] at h
    exact ih (fun d' h' => hds d' (List.mem_cons_of_mem d h')) hents h
  | case4 d ds t ents hdir hpid ih =>
    simp only [scanPids, hdir, hpid, if_false, if_true] at h
    exact ih (fun d' h' => hds d' (List.mem_cons_of_mem d h')) hents h
  | case5 d ds t ents hdir pid hpid hself e hs =>
    simp only [scanPids, hdir, hpid, hself, hs, if_false, reduceCtorEq] at h
  | case6 d ds t ents hdir pid hpid hself ents' t' hs ih =>
    simp only [scanPids, hdir, hpid, hself, hs, if_false] at h
    have hd : PidDirRead fs self d pid :=
      ⟨hds d (List.mem_cons_self d ds), by simpa using hdir, hpid, hself⟩
    exact ih (fun d' h' => hds d' (List.mem_cons_of_mem d h')) (scanPid_read hd hents hs) h

/-- The root loop, over the root listing the scan read first, keeps the invariant. -/
theorem buildUserEntries_entriesRead {ents : UserEnts} (h : buildUserEntries fs self = .ok ents) :
    EntriesRead fs self ents := by
  unfold buildUserEntries at h
  split at h
  · cases h
  · next dir hroot =>
    rcases hs : scanPids fs self (sortEntries dir) 1 (fun _ => none) with e | r
    · simp only [hs, Except.map, reduceCtorEq] at h
    · simp only [hs, Except.map, Except.ok.injEq] at h
      subst h
      exact scanPids_read (fun d hd => ⟨dir, hroot, mem_sortEntries.mp hd⟩) entriesRead_empty hs

/-- Over every `/proc`, however it changes while the scan walks it, each entry of the map
    `BuildUserEntries` returns rests on what the scan read: the root listed a directory named
    by the entry's PID, not the probe's own; a listing of its `fd` held an fd entry named by
    the entry's fd, whose link went to the socket of the entry's key; and a read of the PID's
    `stat` gave the entry's name, parent and group. -/
theorem buildUserEntries_read {ents : UserEnts} (h : buildUserEntries fs self = .ok ents) :
    ∀ i e, ents i = some e → EntryRead fs self i e :=
  buildUserEntries_entriesRead h

end Scan

/-- The PID `4242` exits once the scan has read its `stat`: the scan still returns the entry,
    and the entry rests on the reads made before the exit. -/
theorem buildUserEntries_read_exiting :
    buildUserEntries ((oneFdTree (utf8 "socket:[77]".data)).exiting fun _ => some 7) 1 =
        .ok (setUserEnt (fun _ => none) 77 3 4242 ⟨"nc", 1, 4242⟩) ∧
      EntryRead ((oneFdTree (utf8 "socket:[77]".data)).exiting fun _ => some 7) 1 77
        ⟨77, 3, 4242, "nc", 1, 4242⟩ := by
  have hpid : atoi "4242".data = some 4242 := rfl
  have h : buildUserEntries ((oneFdTree (utf8 "socket:[77]".data)).exiting fun _ => some 7) 1 =
      .ok (setUserEnt (fun _ => none) 77 3 4242 ⟨"nc", 1, 4242⟩) := by
    simp +decide only [buildUserEntries, ProcTree.exiting, ProcTree.without, oneFdTree, Except.map,
      scanPids, scanPid, readDirFd, readDirResult, lstatNames, hpid, List.filter_cons,
      List.filter_nil, if_true, if_false, sortEntries_singleton, sortNames_singleton]
    rfl
  exact ⟨h, buildUserEntries_read h 77 _ rfl⟩

/-! ### How the scan fails while processes exit -/

/-- The errors the exit of a process gives: `ENOENT` from the stat of the `fd` of a PID
    directory that exits or from the open of that `fd`, the panic of `getdents`'s `ENOENT` on
    it, and for a PID whose directory exits, `ENOENT` from the open of its `stat` or `ESRCH`
    from the read. -/
def ExitError (exitAt : String → Option Nat) (e : UserEntsError) : Prop :=
  (∃ name, (exitAt name).isSome ∧
    (e = .stat name ENOENT ∨ e = .readDir name ENOENT ∨ e = .readDirPanic name ENOENT)) ∨
  ∃ pid, (exitAt (toString pid)).isSome ∧ (e = .openStat pid ENOENT ∨ e = .readStat pid ESRCH)

section Exiting

variable {tree : ProcTree} {exitAt : String → Option Nat}

theorem isSome_of_gone {name : String} {t : Nat} (h : (exitAt name).any (· ≤ t) = true) :
    (exitAt name).isSome = true := by
  cases hx : exitAt name with
  | none => rw [hx] at h; cases h
  | some _ => rfl

/-- `parseProcStat` of a PID whose `stat` the tree reads fails, while processes exit, only by
    the exit of the PID's directory: at the open, or between the open and the read. -/
theorem parseProcStat_exiting_error {t : Nat} {pid : Int} {s : ProcStat} {e : UserEntsError}
    (hs : parseProcStat (fun _ => tree) 0 pid = .ok s)
    (h : parseProcStat (tree.exiting exitAt) t pid = .error e) :
    (exitAt (toString pid)).isSome ∧ (e = .openStat pid ENOENT ∨ e = .readStat pid ESRCH) := by
  unfold parseProcStat at hs h
  simp only [ProcTree.exiting, ProcTree.without] at h
  by_cases g1 : (exitAt (toString pid)).any (· ≤ t) = true
  · rw [if_pos g1] at h
    cases h
    exact ⟨isSome_of_gone g1, .inl rfl⟩
  rw [if_neg g1] at h
  rcases ho : tree.openStat (toString pid) with e₀ | ⟨⟩ <;> rw [ho] at hs h
  · cases hs
  dsimp only at hs h
  by_cases g2 : (exitAt (toString pid)).any (· ≤ t + 1) = true
  · rw [if_pos g2] at h
    cases h
    exact ⟨isSome_of_gone g2, .inr rfl⟩
  · rw [if_neg g2, hs] at h
    cases h

theorem exiting_readlink_ok {t : Nat} {name n : String} {body : Bytes}
    (h : (tree.exiting exitAt t).readlink name n = .ok body) : tree.readlink name n = .ok body := by
  simp only [ProcTree.exiting, ProcTree.without] at h
  split at h
  · cases h
  · exact h

theorem exiting_readlink_error {t : Nat} {name n : String} {e : Errno}
    (h : (tree.exiting exitAt t).readlink name n = .error e) (he : e ≠ ENOENT) :
    tree.readlink name n = .error e := by
  simp only [ProcTree.exiting, ProcTree.without] at h
  split at h
  · cases h
    exact absurd rfl he
  · exact h

theorem FdReadable.readlink_error {name n : String} {pid fd : Int} (hr : FdReadable tree name pid n)
    (hn : atoi n.data = some fd) {e : Errno} (hl : tree.readlink name n = .error e) :
    e = ENOENT := by
  rcases hr with h | h | ⟨lnk, ino, h, -⟩
  · rw [hn] at h; cases h
  · rw [hl] at h; cases h; rfl
  · rw [hl] at h; cases h

theorem FdReadable.link_ok {name n : String} {pid fd : Int} (hr : FdReadable tree name pid n)
    (hn : atoi n.data = some fd) {body : Bytes} (hl : tree.readlink name n = .ok body) :
    ∃ ino, parseSocketInode body = .ok ino ∧
      (ino ≠ 0 → ∃ s, parseProcStat (fun _ => tree) 0 pid = .ok s) := by
  rcases hr with h | h | ⟨lnk, ino, h, hino, hs⟩
  · rw [hn] at h; cases h
  · rw [hl] at h; cases h
  · rw [hl] at h; cases h; exact ⟨ino, hino, hs⟩

theorem scanFds_exiting_error {name : String} {pid : Int} {ns : List String} {t : Nat}
    {st : Option ProcStat} {ents : UserEnts} {e : UserEntsError}
    (hr : ∀ n ∈ ns, FdReadable tree name pid n)
    (h : scanFds (tree.exiting exitAt) name pid ns t st ents = .error e) :
    (exitAt (toString pid)).isSome ∧ (e = .openStat pid ENOENT ∨ e = .readStat pid ESRCH) := by
  induction ns, t, st, ents using scanFds.induct (tree.exiting exitAt) name pid with
  | case1 t st ents => cases h
  | case2 n ns t st ents hn ih =>
    simp only [scanFds, hn] at h
    exact ih (fun n' h' => hr n' (List.mem_cons_of_mem n h')) h
  | case3 n ns t st ents fd hn hl ih =>
    simp only [scanFds, hn, hl, if_true] at h
    exact ih (fun n' h' => hr n' (List.mem_cons_of_mem n h')) h
  | case4 n ns t st ents fd hn e' hl he =>
    exact absurd ((hr n (List.mem_cons_self n ns)).readlink_error hn
      (exiting_readlink_error hl he)) he
  | case5 n ns t st ents fd hn body hl f hi =>
    obtain ⟨ino, hino, -⟩ :=
      (hr n (List.mem_cons_self n ns)).link_ok hn (exiting_readlink_ok hl)
    rw [hino] at hi
    cases hi
  | case6 n ns t st ents fd hn body hl hi ih =>
    simp only [scanFds, hn, hl, hi, if_true] at h
    exact ih (fun n' h' => hr n' (List.mem_cons_of_mem n h')) h
  | case7 n ns t ents fd hn body hl ino hi h0 s ih =>
    simp only [scanFds, hn, hl, hi, h0, if_false] at h
    exact ih (fun n' h' => hr n' (List.mem_cons_of_mem n h')) h
  | case8 n ns t ents fd hn body hl ino hi h0 e' hs =>
    simp only [scanFds, hn, hl, hi, h0, hs, if_false] at h
    cases h
    obtain ⟨ino', hino', hs'⟩ :=
      (hr n (List.mem_cons_self n ns)).link_ok hn (exiting_readlink_ok hl)
    rw [hino'] at hi
    cases hi
    obtain ⟨s, hs''⟩ := hs' h0
    exact parseProcStat_exiting_error hs'' hs
  | case9 n ns t ents fd hn body hl ino hi h0 s hs ih =>
    simp only [scanFds, hn, hl, hi, h0, hs, if_false] at h
    exact ih (fun n' h' => hr n' (List.mem_cons_of_mem n h')) h

theorem exiting_statFd (t : Nat) (name : String) :
    (tree.exiting exitAt t).statFd name =
      if (exitAt name).any (· ≤ t) then .error ENOENT else tree.statFd name := rfl

/-- While processes exit, `ReadDir` of an fd directory fails by the exit of its process, at
    the open or at `getdents`, or returns what it returns in the tree. -/
theorem readDirFd_exiting (name : String) (t : Nat) :
    ((readDirFd (tree.exiting exitAt) name t).1 = .pathError ENOENT ∨
        (readDirFd (tree.exiting exitAt) name t).1 = .syscallError ENOENT) ∧
      (exitAt name).isSome ∨
    (readDirFd (tree.exiting exitAt) name t).1 = tree.fdListing name := by
  unfold ProcTree.fdListing readDirFd
  simp only [ProcTree.exiting, ProcTree.without]
  by_cases g1 : (exitAt name).any (· ≤ t) = true
  · refine .inl ⟨.inl ?_, isSome_of_gone g1⟩
    simp only [g1, if_true]
  simp only [g1, Bool.false_eq_true, if_false]
  rcases tree.openFd name with e | ⟨⟩
  · exact .inr rfl
  by_cases g2 : (exitAt name).any (· ≤ t + 1) = true
  · refine .inl ⟨.inr ?_, isSome_of_gone g2⟩
    simp only [g2, if_true]
    rfl
  · refine .inr ?_
    simp only [g2, Bool.false_eq_true, if_false]

/-- One PID directory that reads without error in the tree fails only by the exit of its
    process. -/
theorem scanPid_exiting_error {name : String} {pid : Int} {t : Nat} {ents : UserEnts}
    {e : UserEntsError} (hr : PidReadable tree name pid)
    (h : scanPid (tree.exiting exitAt) name pid t ents = .error e) : ExitError exitAt e := by
  obtain ⟨b, hb, hr⟩ := hr
  unfold scanPid at h
  rw [exiting_statFd] at h
  by_cases g1 : (exitAt name).any (· ≤ t) = true
  · rw [if_pos g1] at h
    cases h
    exact .inl ⟨name, isSome_of_gone g1, .inl rfl⟩
  rw [if_neg g1, hb] at h
  cases b with
  | false => cases h
  | true =>
    have hl := @readDirFd_exiting tree exitAt name (t + 1)
    dsimp only at h
    split at h
    · next e₀ t' hrd =>
      simp only [hrd] at hl
      split at h
      · cases h
      · next hne =>
        cases h
        rcases hl with ⟨hE | hE, hs⟩ | hE
        · cases hE
          exact .inl ⟨name, hs, .inr (.inl rfl)⟩
        · cases hE
        · rcases hr rfl with he | ⟨names, he, -⟩ <;> rw [he] at hE <;> cases hE
          exact absurd rfl hne
    · next e₀ t' hrd =>
      simp only [hrd] at hl
      cases h
      rcases hl with ⟨hE | hE, hs⟩ | hE
      · cases hE
      · cases hE
        exact .inl ⟨name, hs, .inr (.inr rfl)⟩
      · rcases hr rfl with he | ⟨names, he, -⟩ <;> rw [he] at hE <;> cases hE
    · next names t' hrd =>
      simp only [hrd] at hl
      rcases hl with ⟨hE | hE, -⟩ | hE
      · cases hE
      · cases hE
      · rcases hr rfl with he | ⟨names', he, hfd⟩ <;> rw [he] at hE <;> cases hE
        obtain ⟨hs, he⟩ := scanFds_exiting_error hfd h
        exact .inr ⟨pid, hs, he⟩

/-- The PID loop over entries whose PID directories read without error in the tree fails
    only by the exit of a process. -/
theorem scanPids_exiting_error {self : Int} {ds : List DirEntry} {t : Nat} {ents : UserEnts}
    {e : UserEntsError}
    (hr : ∀ d ∈ ds, ∀ pid, scannedPid self d = some pid → PidReadable tree d.name pid)
    (h : scanPids (tree.exiting exitAt) self ds t ents = .error e) : ExitError exitAt e := by
  induction ds, t, ents using scanPids.induct (tree.exiting exitAt) self with
  | case1 t ents => cases h
  | case2 d ds t ents hdir ih =>
    simp only [scanPids, hdir, if_true] at h
    exact ih (fun d' h' => hr d' (List.mem_cons_of_mem d h')) h
  | case3 d ds t ents hdir hpid ih =>
    simp only [scanPids, hdir, hpid, if_false] at h
    exact ih (fun d' h' => hr d' (List.mem_cons_of_mem d h')) h
  | case4 d ds t ents hdir hpid ih =>
    simp only [scanPids, hdir, hpid, if_false, if_true] at h
    exact ih (fun d' h' => hr d' (List.mem_cons_of_mem d h')) h
  | case5 d ds t ents hdir pid hpid hself e' hs =>
    simp only [scanPids, hdir, hpid, hself, hs, if_false] at h
    cases h
    exact scanPid_exiting_error (hr d (List.mem_cons_self d ds) pid
      (scannedPid_eq_some.mpr ⟨by simpa using hdir, hpid, hself⟩)) hs
  | case6 d ds t ents hdir pid hpid hself ents' t' hs ih =>
    simp only [scanPids, hdir, hpid, hself, hs, if_false] at h
    exact ih (fun d' h' => hr d' (List.mem_cons_of_mem d h')) h

/-- Over a tree that `BuildUserEntries` reads without error, with processes exiting at any
    steps of the scan, every failure of the scan is the exit of a process: `ENOENT` from the
    stat of the `fd` of a PID directory that exits or from the open of that `fd`, the panic of
    `getdents`'s `ENOENT` on it, or, for a PID whose directory exits, `ENOENT` from the open of
    its `stat` or `ESRCH` from the read.  Every other read error is absorbed. -/
theorem buildUserEntries_exiting_error {self : Int}
    (hread : ∃ dir, tree.root = .ok dir ∧
      ∀ d ∈ dir, ∀ pid, scannedPid self d = some pid → PidReadable tree d.name pid)
    {e : UserEntsError} (h : buildUserEntries (tree.exiting exitAt) self = .error e) :
    ExitError exitAt e := by
  obtain ⟨dir, hdir, hr⟩ := hread
  have hroot : (tree.exiting exitAt 0).root =
      .ok (dir.filter fun d => !(exitAt d.name).any (· ≤ 0)) := by
    simp only [ProcTree.exiting, ProcTree.without, hdir]
    rfl
  unfold buildUserEntries at h
  rw [hroot] at h
  dsimp only at h
  rcases hs : scanPids (tree.exiting exitAt) self
      (sortEntries (dir.filter fun d => !(exitAt d.name).any (· ≤ 0))) 1 (fun _ => none) with
    e' | r
  · rw [hs] at h
    cases h
    exact scanPids_exiting_error
      (fun d hd => hr d (List.mem_filter.mp (mem_sortEntries.mp hd)).1) hs
  · rw [hs] at h
    cases h

end Exiting

theorem buildUserEntries_exiting_stat :
    (∃ dir, (oneFdTree (utf8 "socket:[77]".data)).root = .ok dir ∧ ∀ d ∈ dir, ∀ pid,
        scannedPid 1 d = some pid → PidReadable (oneFdTree (utf8 "socket:[77]".data)) d.name pid) ∧
      buildUserEntries ((oneFdTree (utf8 "socket:[77]".data)).exiting fun _ => some 1) 1 =
        .error (.stat "4242" ENOENT) ∧
      ExitError (fun _ => some 1) (.stat "4242" ENOENT) := by
  have hread : ∃ dir, (oneFdTree (utf8 "socket:[77]".data)).root = .ok dir ∧ ∀ d ∈ dir, ∀ pid,
      scannedPid 1 d = some pid → PidReadable (oneFdTree (utf8 "socket:[77]".data)) d.name pid := by
    refine ⟨_, rfl, fun d hd pid _ => ?_⟩
    cases List.mem_singleton.mp hd
    refine ⟨true, rfl, fun _ => .inr ⟨["3"], by simp [ProcTree.fdListing, readDirFd, oneFdTree,
      readDirResult, lstatNames, Except.map], fun n hn => ?_⟩⟩
    cases List.mem_singleton.mp hn
    exact .inr (.inr ⟨utf8 "socket:[77]".data, 77, rfl, rfl, fun _ => ⟨_, rfl⟩⟩)
  have hpid : atoi "4242".data = some 4242 := rfl
  have h : buildUserEntries ((oneFdTree (utf8 "socket:[77]".data)).exiting fun _ => some 1) 1 =
      .error (.stat "4242" ENOENT) := by
    simp +decide only [buildUserEntries, ProcTree.exiting, ProcTree.without, oneFdTree,
      Except.map, scanPids, scanPid, hpid, List.filter_cons, List.filter_nil, if_true, if_false,
      sortEntries_singleton]
  exact ⟨hread, h, buildUserEntries_exiting_error hread h⟩

end Shawk.Netutil

namespace Shawk.Netlink

open Shawk.Go Shawk.Netutil Shawk.Probe

/-! ### What the processes of the flows rest on -/

theorem getHostFlowsByNetlink_eq_ok {opt : GetHostFlowsOption} {host : Host}
    {flows : HostFlows} (h : getHostFlowsByNetlink opt host = .ok flows) :
    ∃ ue conns, userEntsOf opt host = .ok ue ∧ host.netlink = .ok conns ∧
      flows = if opt.numeric then netlinkHostFlows opt ue conns
        else (netlinkHostFlows opt ue conns).setLookupedName host.resolve := by
  simp only [getHostFlowsByNetlink, bind, except_bind_eq_ok] at h
  obtain ⟨ue, hue, conns, hconns, h⟩ := h
  refine ⟨ue, conns, hue, ?_, (Except.ok.inj h).symm⟩
  cases hn : host.netlink <;> simp only [hn, Except.mapError, reduceCtorEq] at hconns
  simpa using hconns

/-- Resolving names leaves every flow's process as it is. -/
theorem setLookupedName_process {resolve : String → Option String} {flows : HostFlows}
    {k : FlowKey} {f : HostFlow} (h : flows.setLookupedName resolve k = some f) :
    ∃ f₀, flows k = some f₀ ∧ f.process = f₀.process := by
  obtain ⟨f₀, h₀, rfl⟩ := Option.map_eq_some'.mp h
  exact ⟨f₀, h₀, rfl⟩

theorem userEntsOf_eq_some {opt : GetHostFlowsOption} {host : Host} {ents : UserEnts}
    (h : userEntsOf opt host = .ok (some ents)) :
    buildUserEntries host.proc host.self = .ok ents := by
  unfold userEntsOf at h
  split at h
  · cases hb : buildUserEntries host.proc host.self <;>
      simp only [hb, Except.map, Except.mapError, reduceCtorEq, Except.ok.injEq,
        Option.some.injEq] at h
    rw [h]
  · cases h

theorem netlinkHostFlows_none_process {opt : GetHostFlowsOption} {conns : List InetDiagMsg}
    {k : FlowKey} {f : HostFlow} (h : netlinkHostFlows opt none conns k = some f) :
    f.process = none := by
  rw [netlinkHostFlows_apply] at h
  obtain ⟨c, -, rfl⟩ := Option.map_eq_some'.mp h
  simp only [netlinkHostFlow, connEnt, lportEntOf_none]
  split <;> rfl

theorem procfsHostFlows_process {conns : List ConnectionStat} {k : FlowKey} {f : HostFlow}
    (h : procfsHostFlows conns k = some f) : f.process = none := by
  rw [procfsHostFlows_apply, procfsReference] at h
  split at h
  · cases h
  · cases h; rfl

/-- The socket `i` is the connection `c`'s own, or that of a listener of the dump on the local
    port of `c`. -/
def SocketOf (conns : List InetDiagMsg) (c : InetDiagMsg) (i : UInt32) : Prop :=
  c.inode = i ∨ ∃ l ∈ conns, isLocalListener l ∧ l.srcPort = c.srcPort ∧ l.inode = i

/-- The process of a flow built from a map is that of an entry of the map: the entry of a
    connection aggregated into the flow, or of a listener on that connection's port. -/
theorem netlinkHostFlows_process_ent {opt : GetHostFlowsOption} {ue : UserEnts}
    {conns : List InetDiagMsg} {k : FlowKey} {f : HostFlow} {p : Process}
    (h : netlinkHostFlows opt (some ue) conns k = some f) (hp : f.process = some p) :
    ∃ c ∈ conns, aggregatedInto opt.filter conns k c ∧
      ∃ i e, ue i = some e ∧ p = UserEnt.toProcess e ∧ SocketOf conns c i := by
  rw [netlinkHostFlows_apply] at h
  obtain ⟨c, hfind, rfl⟩ := Option.map_eq_some'.mp h
  rw [netlinkHostFlow_process] at hp
  obtain ⟨e, he, rfl⟩ := Option.map_eq_some'.mp hp
  refine ⟨c, List.mem_of_find?_eq_some hfind, List.find?_some hfind, ?_⟩
  rcases attributedEnt_some he with ⟨-, hue⟩ | ⟨-, l, hl, hlis, hport, hue⟩
  · exact ⟨c.inode, e, hue, rfl, .inl rfl⟩
  · exact ⟨l.inode, e, hue, rfl, .inr ⟨l, hl, hlis, hport, rfl⟩⟩

/-- Over every host, with `/proc` changing as it will during the scan, every process
    `GetHostFlows` puts on a flow is the name and group of an entry the scan read
    (`EntryRead`), for the socket of a connection of the netlink dump aggregated into the flow
    or of a listener on that connection's port.  The probe never puts on a flow a process it
    did not read, nor its own. -/
theorem getHostFlows_process_read {opt : GetHostFlowsOption} {host : Host} {flows : HostFlows}
    (h : getHostFlows opt host = .ok flows) {k : FlowKey} {f : HostFlow} {p : Process}
    (hf : flows k = some f) (hp : f.process = some p) :
    ∃ conns, host.netlink = .ok conns ∧ ∃ c ∈ conns, aggregatedInto opt.filter conns k c ∧
      ∃ i e, EntryRead host.proc host.self i e ∧ p = UserEnt.toProcess e ∧
        SocketOf conns c i := by
  unfold getHostFlows at h
  split at h
  · next flows' hn =>
    cases h
    obtain ⟨ue, conns, hue, hconns, rfl⟩ := getHostFlowsByNetlink_eq_ok hn
    obtain ⟨f₀, hf₀, hproc⟩ :
        ∃ f₀, netlinkHostFlows opt ue conns k = some f₀ ∧ f.process = f₀.process := by
      split at hf
      · exact ⟨f, hf, rfl⟩
      · exact setLookupedName_process hf
    rw [hproc] at hp
    cases ue with
    | none => rw [netlinkHostFlows_none_process hf₀] at hp; cases hp
    | some ents =>
      obtain ⟨c, hc, hagg, i, e, he, rfl, hi⟩ := netlinkHostFlows_process_ent hf₀ hp
      exact ⟨conns, hconns, c, hc, hagg, i, e,
        buildUserEntries_entriesRead (userEntsOf_eq_some hue) i e he, rfl, hi⟩
  · split at h
    · rcases hc : procfsConnections host.procNetTcp with e | cs <;>
        simp only [getHostFlowsByProcfs, hc, Except.map, Except.mapError, reduceCtorEq,
          Except.ok.injEq] at h
      subst h
      rw [procfsHostFlows_process hf] at hp
      cases hp
    · cases h

/-- A host whose netlink dump holds the client socket `77`, held by the process `nc` of PID
    `4242`. -/
def ncHost : Host where
  netlink := .ok [sampleClient 40000 77]
  procNetTcp := .ok []
  proc := fun _ => oneFdTree (utf8 "socket:[77]".data)
  self := 1
  resolve := fun _ => none

/-- The map the scan of `ncHost` returns. -/
def ncEnts : UserEnts := setUserEnt (fun _ => none) 77 3 4242 ⟨"nc", 1, 4242⟩

/-- Processes on, numeric names, the filter `all`. -/
def processesOpt : GetHostFlowsOption := ⟨true, true, FilterAll⟩

/-- The flow of the client socket, on the process `nc`. -/
def ncFlow : HostFlow :=
  ⟨.active, ⟨"10.0.0.1", "many"⟩, ⟨"10.0.0.2", "80"⟩, some ⟨"nc", 4242⟩, 1⟩

theorem getHostFlows_process_read_nc :
    getHostFlows processesOpt ncHost =
        .ok (netlinkHostFlows processesOpt (some ncEnts) [sampleClient 40000 77]) ∧
      netlinkHostFlows processesOpt (some ncEnts) [sampleClient 40000 77] sampleKey =
        some ncFlow ∧
      ∃ conns, ncHost.netlink = .ok conns ∧
        ∃ c ∈ conns, aggregatedInto FilterAll conns sampleKey c ∧
          ∃ i e, EntryRead ncHost.proc ncHost.self i e ∧
            ⟨"nc", 4242⟩ = UserEnt.toProcess e ∧ SocketOf conns c i := by
  have hb : buildUserEntries ncHost.proc ncHost.self = .ok ncEnts := buildUserEntries_oneFdTree
  have h : getHostFlows processesOpt ncHost =
      .ok (netlinkHostFlows processesOpt (some ncEnts) [sampleClient 40000 77]) := by
    simp only [getHostFlows, getHostFlowsByNetlink, userEntsOf, processesOpt, if_true, hb]
    rfl
  have hf : netlinkHostFlows processesOpt (some ncEnts) [sampleClient 40000 77] sampleKey =
      some ncFlow := by
    decide
  exact ⟨h, hf, getHostFlows_process_read h hf rfl⟩

end Shawk.Netlink
