import SocksProxy.Circular
import SocksProxy.UserTable

/-!
access_log.c: the last MAX_LOG_ENTRIES proxied connections, in a circular array.
-/
namespace SocksProxy.AccessLog

open Auth UserTable Circular

def MAX_LOG_ENTRIES : ℕ := 1024

/-- `struct access_entry`. -/
structure AccessEntry where
  username : Vector UInt8 256
  destAddr : Vector UInt8 256
  destPort : UInt16
  timestamp : Int64
  deriving DecidableEq

/-- `log_state`. -/
abbrev Log := CircularArray AccessEntry MAX_LOG_ENTRIES

def accessLogInit : Log :=
  CircularArray.empty
    { username := Vector.replicate 256 0, destAddr := Vector.replicate 256 0
      destPort := 0, timestamp := 0 } (by decide)

/-- The arguments of one access_log_add and what time() returns in it; `none`
is NULL. -/
structure Access where
  username : Option (List UInt8)
  destAddr : Option (List UInt8)
  destPort : UInt16
  now : Int64
  deriving DecidableEq

/-- The string that stands for a missing one. -/
def DASH : List UInt8 := [0x2D]

def Access.user (a : Access) : List UInt8 := a.username.getD DASH

def Access.dest (a : Access) : List UInt8 := a.destAddr.getD DASH

/-- The entry that is written: both strings by strncpy. -/
def Access.entry (a : Access) : AccessEntry where
  username := strncpy a.user
  destAddr := strncpy a.dest
  destPort := a.destPort
  timestamp := a.now

def accessLogAdd (log : Log) (a : Access) : Log := log.push a.entry

def accessLogCount (log : Log) : ℕ := log.count

def accessLogOldestIndex (log : Log) : ℕ := log.oldest

/-- After any number of calls the array holds the last of them, in order. -/
theorem contents_of_calls (calls : List Access) :
    (calls.foldl accessLogAdd accessLogInit).contents =
      (calls.rtake MAX_LOG_ENTRIES).map Access.entry := by
  have hpush := CircularArray.contents_foldl_push (calls.map Access.entry) accessLogInit []
    (CircularArray.contents_empty _ _)
  rw [List.foldl_map, List.nil_append] at hpush
  refine hpush.trans ?_
  rw [List.rtake, List.rtake, List.length_map, List.map_drop]

/-- Strings that an entry has room for. -/
def Access.Fits (a : Access) : Prop :=
  (a.user.length ≤ MAX_CRED_LEN ∧ 0 ∉ a.user) ∧ a.dest.length ≤ MAX_CRED_LEN ∧ 0 ∉ a.dest

theorem Access.Fits.username_eq {a : Access} (h : a.Fits) :
    cString a.entry.username.toList = a.user := cString_strncpy h.1.1 h.1.2

theorem Access.Fits.destAddr_eq {a : Access} (h : a.Fits) :
    cString a.entry.destAddr.toList = a.dest := cString_strncpy h.2.1 h.2.2

end SocksProxy.AccessLog
