import Mathlib.Data.Finset.Basic
import Mathlib.Data.List.Basic
import SocksProxy.ConnState

/-!
selector.c: the table of file descriptors and the two fd_sets that are kept next
to it. An access to `fds` beyond `fd_size` halts the model. The part of
selector_unregister_fd before handle_close and the part after it are two
functions, since handle_close may come back to the selector in between.
-/
namespace SocksProxy.Selector

open ConnState (FdInterest OP_NOOP)

def FD_SETSIZE : ℕ := 1024

def ITEMS_MAX_SIZE : ℕ := FD_SETSIZE

def FD_UNUSED : ℤ := -1

inductive SelectorStatus
  | success
  | enomem
  | maxfd
  | iargs
  | fdinuse
  | io
  deriving DecidableEq

/-- `struct fd_handler`: which of the callbacks are not NULL. -/
structure FdHandler where
  handleRead : Bool
  handleWrite : Bool
  handleBlockDone : Bool
  handleClose : Bool
  deriving DecidableEq

/-- `struct item`; `data` is a pointer. The source has no `serial`: it tells
apart the registrations that an entry held over time. -/
structure Item where
  fd : ℤ
  interest : FdInterest
  handler : Option FdHandler
  data : ℕ
  serial : ℕ
  deriving DecidableEq

/-- A blanked item after item_init. -/
def itemInit : Item :=
  { fd := FD_UNUSED, interest := OP_NOOP, handler := none, data := 0, serial := 0 }

/-- ITEM_USED. -/
def Item.used (item : Item) : Bool := item.fd != FD_UNUSED

/-- `struct blocking_job`, without the cleanup, which leaves the selector alone. -/
structure BlockingJob where
  fd : ℤ
  data : ℕ
  deriving DecidableEq

/-- `struct fdselector`; fd_size is the length of `fds`, which is empty before
its first allocation and after the last free. -/
structure FdSelector where
  fds : List Item
  maxFd : ℕ
  masterR : Finset ℕ
  masterW : Finset ℕ
  slaveR : Finset ℕ
  slaveW : Finset ℕ
  resolutionJobs : List BlockingJob

abbrev FdSelector.fdSize (s : FdSelector) : ℕ := s.fds.length

/-- What stops the model: an access to `fds` at an index that it does not have,
one through a pointer that realloc has made invalid, FD_CLR of a negative
descriptor, or a failed assertion. `unreal` is no step of the program. -/
inductive Halt
  | outOfBounds (index : ℤ)
  | dangling
  | badFdSet
  | assertion
  | unreal
  deriving DecidableEq

/-- `s->fds + index`, dereferenced. -/
def itemAt (s : FdSelector) (index : ℤ) : Except Halt Item :=
  match index with
  | .ofNat i =>
    match s.fds[i]? with
    | some item => .ok item
    | none => .error (.outOfBounds index)
  | .negSucc _ => .error (.outOfBounds index)

def setItem (s : FdSelector) (i : ℕ) (item : Item) : FdSelector :=
  { s with fds := s.fds.set i item }

section Capacity

/-- The bits of a size_t, counted by the loop of next_capacity. -/
def bitsLoop : ℕ → ℕ → ℕ
  | 0, _ => 0
  | fuel + 1, tmp => if tmp = 0 then 0 else bitsLoop fuel (tmp / 2) + 1

def nextCapacity (n : ℕ) : ℕ :=
  let tmp := 2 ^ bitsLoop 64 n
  (if tmp > ITEMS_MAX_SIZE then ITEMS_MAX_SIZE else tmp) + 1

/-- `alloc` is the answer of calloc or realloc. -/
def ensureCapacity (alloc : Bool) (s : FdSelector) (n : ℕ) : SelectorStatus × FdSelector :=
  if n < s.fdSize then (.success, s)
  else if n > ITEMS_MAX_SIZE then (.maxfd, s)
  else if s.fds = [] then
    if alloc then (.success, { s with fds := List.replicate (nextCapacity n) itemInit })
    else (.enomem, s)
  else
    if alloc then
      (.success, { s with fds := s.fds ++ List.replicate (nextCapacity n - s.fdSize) itemInit })
    else (.enomem, s)

/-- The selector that selector_new allocates, before ensure_capacity. -/
def selectorZero : FdSelector where
  fds := []
  maxFd := 0
  masterR := ∅
  masterW := ∅
  slaveR := ∅
  slaveW := ∅
  resolutionJobs := []

def selectorNew (initialElements : ℕ) (alloc : Bool) : Option FdSelector :=
  match ensureCapacity alloc selectorZero initialElements with
  | (.success, s) => some s
  | _ => none

end Capacity

section Calls

/-- INVALID_FD. -/
def invalidFd (fd : ℤ) : Bool := fd < 0 || fd ≥ ITEMS_MAX_SIZE

/-- items_max_fd, which reads the entries up to max_fd. -/
def itemsMaxFd (s : FdSelector) : Except Halt ℕ :=
  if s.maxFd < s.fdSize then
    .ok ((s.fds.take (s.maxFd + 1)).foldl (fun max item =>
      if item.used then if item.fd > max then item.fd.toNat else max else max) 0)
  else .error (.outOfBounds s.fdSize)

def itemsUpdateFdsetForFd (s : FdSelector) (item : Item) : Except Halt FdSelector :=
  match item.fd with
  | .negSucc _ => .error .badFdSet
  | .ofNat fd =>
    let r := s.masterR.erase fd
    let w := s.masterW.erase fd
    .ok { s with
      masterR := if item.used && item.interest.read then insert fd r else r
      masterW := if item.used && item.interest.write then insert fd w else w }

/-- The end of selector_register. `serial` is the number of the registration, if
there will be one. -/
def registerItem (serial : ℕ) (s : FdSelector) (ufd : ℕ) (handler : Option FdHandler)
    (interest : FdInterest) (data : ℕ) : Except Halt (SelectorStatus × FdSelector) := do
  let item ← itemAt s ufd
  if item.used then .ok (.fdinuse, s)
  else
    let item :=
      { fd := ufd, interest := interest, handler := handler, data := data, serial := serial }
    let s := setItem s ufd item
    let s := if ufd > s.maxFd then { s with maxFd := ufd } else s
    let s ← itemsUpdateFdsetForFd s item
    .ok (.success, s)

def selectorRegister (alloc : Bool) (serial : ℕ) (s : FdSelector) (fd : ℤ)
    (handler : Option FdHandler) (interest : FdInterest) (data : ℕ) :
    Except Halt (SelectorStatus × FdSelector) :=
  if invalidFd fd || handler.isNone then .ok (.iargs, s)
  else
    let ufd := fd.toNat
    let (ret, s) := if ufd > s.fdSize then ensureCapacity alloc s ufd else (.success, s)
    if ret ≠ .success then .ok (ret, s)
    else registerItem serial s ufd handler interest data

/-- selector_unregister_fd up to handle_close: an error, or the item to close. -/
def unregisterStart (s : FdSelector) (fd : ℤ) : Except Halt (Except SelectorStatus Item) :=
  if invalidFd fd then .ok (.error .iargs)
  else do
    let item ← itemAt s fd
    if !item.used then .ok (.error .iargs) else .ok (.ok item)

/-- selector_unregister_fd after handle_close. -/
def unregisterEnd (s : FdSelector) (fd : ℕ) : Except Halt FdSelector := do
  let item ← itemAt s fd
  let item := { item with interest := OP_NOOP }
  let s ← itemsUpdateFdsetForFd (setItem s fd item) item
  let s := setItem s fd itemInit
  let maxFd ← itemsMaxFd s
  .ok { s with maxFd := maxFd }

def selectorSetInterest (s : FdSelector) (fd : ℤ) (i : FdInterest) :
    Except Halt (SelectorStatus × FdSelector) :=
  if invalidFd fd then .ok (.iargs, s)
  else do
    let item ← itemAt s fd
    if !item.used then .ok (.iargs, s)
    else
      let item := { item with interest := i }
      let s ← itemsUpdateFdsetForFd (setItem s fd.toNat item) item
      .ok (.success, s)

def selectorSetInterestKey (s : FdSelector) (keyFd : ℤ) (i : FdInterest) :
    Except Halt (SelectorStatus × FdSelector) :=
  if invalidFd keyFd then .ok (.iargs, s) else selectorSetInterest s keyFd i

end Calls

end SocksProxy.Selector
