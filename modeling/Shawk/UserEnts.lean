import Shawk.Fmt
import Shawk.Procfs
import Shawk.Utf8
import Mathlib.Data.String.Basic

/-!
# The process attributor: `BuildUserEntries`

`BuildUserEntries` walks `/proc`: for every directory whose name is a PID other than the
probe's own, it lists `<pid>/fd`, reads each fd link, and for a link `socket:[<inode>]`
records the inode with the fd, the PID, and the name, parent and group the PID's `stat`
file gives (read once, at its first socket).  The result maps socket inodes to `UserEnt`s.

The file system is an oracle.  `ProcTree` answers every call the scan makes at one instant;
`ProcFs` is `/proc` over the whole scan, the tree at each step, each call one step, so
that processes may exit while the scan runs.  File contents and link targets are bytes, which
`fmt` reads as runes.  `ioutil.ReadDir` of an fd directory is two calls, the open and the
listing (`getdents`, and `lstat` of every name it lists); the open of a `stat` file and its
first read, which returns the whole file, are two more.
-/

namespace Shawk.Netutil

open Shawk.Go

/-- `UserEnt`. -/
structure UserEnt where
  inode : UInt32
  fd : Int
  pid : Int
  pname : String
  ppid : Int
  pgrp : Int
deriving DecidableEq, Repr

/-- `UserEnts`: the entries by socket inode; an absent key reads as `nil`. -/
abbrev UserEnts := UInt32 → Option UserEnt

/-- `procStat`. -/
structure ProcStat where
  pname : String
  ppid : Int
  pgrp : Int
deriving DecidableEq, Repr

/-- An entry of `ioutil.ReadDir`: its name, and whether it is a directory (by `lstat`). -/
structure DirEntry where
  name : String
  isDir : Bool
deriving DecidableEq, Repr

/-- `/proc` as the scan sees it at one instant: the root listing; and for the PID directory
    `name`, `os.Stat` of `name/fd` (whether it is a directory), the open of `name/fd`, what
    `Readdir` of it finds (the names `getdents` lists, each with what `lstat` answers for it,
    and the error that stopped `getdents`, if any), the target of each fd link, and the open
    of `name/stat` and what its first read returns. -/
structure ProcTree where
  root : Except Errno (List DirEntry)
  statFd : String → Except Errno Bool
  openFd : String → Except Errno Unit
  listFd : String → List (String × Except Errno Unit) × Option Errno
  readlink : String → String → Except Errno Bytes
  openStat : String → Except Errno Unit
  readStat : String → Except Errno Bytes

/-- `/proc` over a scan: the tree at each step; every file-system call is one step. -/
abbrev ProcFs := Nat → ProcTree

/-- The errors of `BuildUserEntries`, each with what its message names. -/
inductive UserEntsError
  /-- `ioutil.ReadDir(root)` failed. -/
  | readDirRoot (e : Errno)
  /-- "stat %s: %v" on `<pid>/fd`. -/
  | stat (pidDir : String) (e : Errno)
  /-- "readdir %s: %v" on `<pid>/fd`: its open or an `lstat` in it failed. -/
  | readDir (pidDir : String) (e : Errno)
  /-- The panic of the assertion `err.(*os.PathError)` when `getdents` on `<pid>/fd` failed:
      `ioutil.ReadDir` then returns an `*os.SyscallError`.  No error is returned; the probe
      stops. -/
  | readDirPanic (pidDir : String) (e : Errno)
  /-- "readlink %s: %v" on `<pid>/fd/<fd>`. -/
  | readlink (pidDir fd : String) (e : Errno)
  /-- `parseSocketInode`'s error on a link target, the error of `Sscanf`. -/
  | socketInode (f : ScanFailure)
  /-- "could not open %s: %w" on `<pid>/stat`. -/
  | openStat (pid : Int) (e : Errno)
  /-- "could not scan '%s': %w" on `<pid>/stat` when its read fails. -/
  | readStat (pid : Int) (e : Errno)
  /-- "could not scan '%s': %w" on `<pid>/stat`. -/
  | scanStat (pid : Int) (f : ScanFailure)
  /-- "could not scan '%s': %w" on the command field. -/
  | scanComm (comm : String) (f : ScanFailure)
deriving DecidableEq, Repr

/-! ### `parseProcStat` and `parseSocketInode` -/

/-- `strings.TrimRight(s, ")")`. -/
def trimRightParen (s : List Char) : List Char :=
  (s.reverse.dropWhile (· == ')')).reverse

/-- What `parseProcStat` makes of the first read of `<pid>/stat`: `Fscan` its first five
    fields from the runes of the file, take the name out of `(…)` with `Sscanf`, tolerating
    `io.ErrUnexpectedEOF`, and trim `)`s off its end.  (The `comm` token `Fscan` returns is
    made of runes, so `Sscanf` reads back the same runes from it.) -/
def scanProcStat (pid : Int) (read : Except Errno Bytes) : Except UserEntsError ProcStat :=
  match read with
  | .error e => .error (.readStat pid e)
  | .ok body =>
    match fscanProcStat (runes body) with
    | .error f => .error (.scanStat pid f)
    | .ok (_, comm, _, ppid, pgrp) =>
      match sscanfParenString comm with
      | (pname, none) => .ok ⟨⟨trimRightParen pname⟩, ppid, pgrp⟩
      | (pname, some f) =>
        if f = .unexpectedEOF then .ok ⟨⟨trimRightParen pname⟩, ppid, pgrp⟩
        else .error (.scanComm ⟨comm⟩ f)

/-- `parseProcStat(root, pid)` from step `t`: open `<pid>/stat`, and scan what its first read,
    at the next step, returns. -/
def parseProcStat (fs : ProcFs) (t : Nat) (pid : Int) : Except UserEntsError ProcStat :=
  match (fs t).openStat (toString pid) with
  | .error e => .error (.openStat pid e)
  | .ok () => scanProcStat pid ((fs (t + 1)).readStat (toString pid))

/-- Over a tree that holds still, `parseProcStat` reads the same at every step. -/
theorem parseProcStat_static (tree : ProcTree) (t : Nat) (pid : Int) :
    parseProcStat (fun _ => tree) t pid = parseProcStat (fun _ => tree) 0 pid := rfl

/-- `socketPrefix`. -/
def socketPrefix : List Char := "socket:[".data

/-- `parseSocketInode`: 0 when the bytes of the link do not contain `socket:[`, and otherwise
    what `Sscanf(lnk, "socket:[%d]", &ino)` reads from its runes, or its error.  (`Sscanf`
    reports one item whenever it reports no error, so the `n != 1` branch is never taken.) -/
def parseSocketInode (lnk : Bytes) : Except ScanFailure UInt32 :=
  match index lnk (utf8 socketPrefix) with
  | none => .ok 0
  | some _ => (sscanfSocketInode (runes lnk)).map Nat.toUInt32

/-! ### `BuildUserEntries` -/

/-- `ioutil.ReadDir` returns its entries sorted by name. -/
def sortNames (names : List String) : List String :=
  names.mergeSort fun a b => !decide (b < a)

/-- The root listing, sorted by name. -/
def sortEntries (dir : List DirEntry) : List DirEntry :=
  dir.mergeSort fun a b => !decide (b.name < a.name)

@[simp] theorem sortNames_singleton (n : String) : sortNames [n] = [n] :=
  List.mergeSort_singleton n

@[simp] theorem sortEntries_singleton (d : DirEntry) : sortEntries [d] = [d] :=
  List.mergeSort_singleton d

/-- How `ioutil.ReadDir` of a directory ended: the names it returns, sorted; the
    `*os.PathError` of its open or of an `lstat`; or the `*os.SyscallError` of `getdents`. -/
inductive ReadDirResult
  | ok (names : List String)
  | pathError (e : Errno)
  | syscallError (e : Errno)
deriving DecidableEq, Repr

/-- The `lstat` loop of `os.(*File).readdir`: the listed names whose `lstat` succeeds, in
    listing order, without those it reports missing (`os.IsNotExist`); the first other error
    stops the loop. -/
def lstatNames : List (String × Except Errno Unit) → Except Errno (List String)
  | [] => .ok []
  | (n, .ok ()) :: ns => (lstatNames ns).map (n :: ·)
  | (_, .error e) :: ns => if e = ENOENT then lstatNames ns else .error e

/-- What `ioutil.ReadDir` returns once its directory is open, from what `Readdir` finds: an
    `lstat` error comes first; then an error of `getdents`; otherwise the names, sorted. -/
def readDirResult (listing : List (String × Except Errno Unit) × Option Errno) :
    ReadDirResult :=
  match lstatNames listing.1, listing.2 with
  | .error e, _ => .pathError e
  | .ok _, some e => .syscallError e
  | .ok names, none => .ok (sortNames names)

/-- `ioutil.ReadDir(<name>/fd)` from step `t`: open the directory, then list it at the next
    step; returns the step after. -/
def readDirFd (fs : ProcFs) (name : String) (t : Nat) : ReadDirResult × Nat :=
  match (fs t).openFd name with
  | .error e => (.pathError e, t + 1)
  | .ok () => (readDirResult ((fs (t + 1)).listFd name), t + 2)

/-- `ioutil.ReadDir(<name>/fd)` over a tree that holds still. -/
def ProcTree.fdListing (tree : ProcTree) (name : String) : ReadDirResult :=
  (readDirFd (fun _ => tree) name 0).1

theorem readDirFd_static (tree : ProcTree) (name : String) (t : Nat) :
    (readDirFd (fun _ => tree) name t).1 = tree.fdListing name := by
  unfold ProcTree.fdListing readDirFd
  cases tree.openFd name <;> rfl

/-- The entry `userEnts[ino] = &UserEnt{...}` writes. -/
def setUserEnt (ents : UserEnts) (ino : UInt32) (fd pid : Int) (st : ProcStat) : UserEnts :=
  fun i => if i = ino then some ⟨ino, fd, pid, st.pname, st.ppid, st.pgrp⟩ else ents i

/-- The fd loop over the sorted listing of `<pid>/fd`, from step `t`, with the PID's `stat`
    once read; returns the entries and the step after the loop. -/
def scanFds (fs : ProcFs) (name : String) (pid : Int) :
    List String → Nat → Option ProcStat → UserEnts → Except UserEntsError (UserEnts × Nat)
  | [], t, _, ents => .ok (ents, t)
  | n :: ns, t, st, ents =>
    match atoi n.data with
    | none => scanFds fs name pid ns t st ents
    | some fd =>
      match (fs t).readlink name n with
      | .error e =>
        if e = ENOENT then scanFds fs name pid ns (t + 1) st ents
        else .error (.readlink name n e)
      | .ok lnk =>
        match parseSocketInode lnk with
        | .error f => .error (.socketInode f)
        | .ok ino =>
          if ino = 0 then scanFds fs name pid ns (t + 1) st ents
          else match st with
            | some s => scanFds fs name pid ns (t + 1) (some s) (setUserEnt ents ino fd pid s)
            | none =>
              match parseProcStat fs (t + 1) pid with
              | .error e => .error e
              | .ok s => scanFds fs name pid ns (t + 3) (some s) (setUserEnt ents ino fd pid s)

/-- One PID directory from step `t`: stat `<pid>/fd`, skip it when it is not a directory,
    read it with `ioutil.ReadDir`, skip it when that fails with `EACCES`, and run the fd loop
    over its listing.  The code takes every error of `ReadDir` for an `*os.PathError`. -/
def scanPid (fs : ProcFs) (name : String) (pid : Int) (t : Nat) (ents : UserEnts) :
    Except UserEntsError (UserEnts × Nat) :=
  match (fs t).statFd name with
  | .error e => .error (.stat name e)
  | .ok false => .ok (ents, t + 1)
  | .ok true =>
    match readDirFd fs name (t + 1) with
    | (.pathError e, t') => if e = EACCES then .ok (ents, t') else .error (.readDir name e)
    | (.syscallError e, _) => .error (.readDirPanic name e)
    | (.ok names, t') => scanFds fs name pid names t' none ents

/-- The PID loop over the root listing: directories whose name `Atoi` reads as a PID other
    than the probe's own `self`. -/
def scanPids (fs : ProcFs) (self : Int) :
    List DirEntry → Nat → UserEnts → Except UserEntsError (UserEnts × Nat)
  | [], t, ents => .ok (ents, t)
  | d :: ds, t, ents =>
    if d.isDir = false then scanPids fs self ds t ents
    else match atoi d.name.data with
      | none => scanPids fs self ds t ents
      | some pid =>
        if pid = self then scanPids fs self ds t ents
        else match scanPid fs d.name pid t ents with
          | .error e => .error e
          | .ok (ents, t) => scanPids fs self ds t ents

/-- `BuildUserEntries`, for a probe whose PID is `self`. -/
def buildUserEntries (fs : ProcFs) (self : Int) : Except UserEntsError UserEnts :=
  match (fs 0).root with
  | .error e => .error (.readDirRoot e)
  | .ok dir => (scanPids fs self (sortEntries dir) 1 fun _ => none).map Prod.fst

/-! ### Static trees and exiting processes -/

/-- The tree after the PID directories `gone` have vanished: the root no longer lists them;
    their `fd` directory, its open, its listing, their fd links and the open of their `stat`
    report `ENOENT`, and a read of a `stat` file opened before reports `ESRCH`. -/
def ProcTree.without (tree : ProcTree) (gone : String → Bool) : ProcTree where
  root := tree.root.map (·.filter fun d => !gone d.name)
  statFd name := if gone name then .error ENOENT else tree.statFd name
  openFd name := if gone name then .error ENOENT else tree.openFd name
  listFd name := if gone name then ([], some ENOENT) else tree.listFd name
  readlink name fd := if gone name then .error ENOENT else tree.readlink name fd
  openStat name := if gone name then .error ENOENT else tree.openStat name
  readStat name := if gone name then .error ESRCH else tree.readStat name

/-- `/proc` while processes exit: the PID directory `name` vanishes at step `exitAt name`. -/
def ProcTree.exiting (tree : ProcTree) (exitAt : String → Option Nat) : ProcFs :=
  fun t => tree.without fun name => (exitAt name).any (· ≤ t)

end Shawk.Netutil
