import SocksProxy.Auth

/-!
user_table.c: a fixed table of name and password pairs, both stored as C
strings in `char[256]` arrays. A string argument is the list of its bytes
before the NUL.
-/
namespace SocksProxy.UserTable

open Auth

def MAX_USERS : ℕ := 10
def MAX_CRED_LEN : ℕ := 255

/-- `struct user_entry`. -/
structure UserEntry where
  name : Vector UInt8 256
  pass : Vector UInt8 256
  active : Bool
  deriving DecidableEq

/-- The table and its counter. -/
structure Table where
  entries : Vector UserEntry MAX_USERS
  count : ℕ
  deriving DecidableEq

def userTableInit : Table where
  entries := Vector.replicate MAX_USERS
    { name := Vector.replicate 256 0, pass := Vector.replicate 256 0, active := false }
  count := 0

/-- strncpy of MAX_CRED_LEN bytes, zero padded, and the final NUL. -/
def strncpy (s : List UInt8) : Vector UInt8 256 :=
  Vector.ofFn fun i : Fin 256 => if i.val < MAX_CRED_LEN then s.getD i.val 0 else 0

theorem strncpy_eq {s : List UInt8} (h : s.length ≤ MAX_CRED_LEN) :
    (strncpy s).toList = s ++ List.replicate (256 - s.length) 0 := by
  unfold MAX_CRED_LEN at h
  apply List.ext_getElem?
  intro i
  rw [Vector.getElem?_toList]
  by_cases hi : i < 256
  · rw [Vector.getElem?_eq_getElem hi, strncpy, Vector.getElem_ofFn]
    by_cases hs : i < s.length
    · have hlt : i < MAX_CRED_LEN := Nat.lt_of_lt_of_le hs h
      rw [List.getElem?_append_left hs]
      simp [hs, hlt]
    · have hleft : i - s.length < 256 - s.length := by omega
      rw [List.getElem?_append_right (by omega), List.getElem?_replicate, if_pos hleft]
      simp [hs]
  · rw [Vector.getElem?_eq_none (by omega), List.getElem?_eq_none]
    rw [List.length_append, List.length_replicate]
    omega

/-- A string that fits is stored whole. -/
theorem cString_strncpy {s : List UInt8} (h : s.length ≤ MAX_CRED_LEN) (hnul : 0 ∉ s) :
    cString (strncpy s).toList = s := by
  have hfill : List.replicate (256 - s.length) (0 : UInt8) =
      0 :: List.replicate (255 - s.length) 0 := by
    unfold MAX_CRED_LEN at h
    rw [← List.replicate_succ]
    congr 1
    omega
  rw [strncpy_eq h, hfill, cString_append_zero, cString_eq_self hnul]

/-- No string in an array with a NUL in its last place is longer. -/
theorem cString_length_le {v : Vector UInt8 256} (h : v[255] = 0) :
    (cString v.toList).length ≤ MAX_CRED_LEN := by
  have hlen : 255 < v.toList.length := by
    rw [Vector.length_toList]
    omega
  have hsplit : v.toList = v.toList.take 255 ++ 0 :: v.toList.drop 256 := by
    rw [← h, ← Vector.getElem_toList (by omega), ← List.drop_eq_getElem_cons hlen,
      List.take_append_drop]
  rw [hsplit, cString_append_zero]
  refine Nat.le_trans (List.takeWhile_prefix _).length_le ?_
  rw [List.length_take]
  exact Nat.min_le_left _ _

theorem strncpy_last (s : List UInt8) : (strncpy s)[255] = 0 := by
  simp [strncpy, MAX_CRED_LEN]

/-- `active` and an equal name by strcmp. -/
def named (name : List UInt8) (e : UserEntry) : Bool :=
  e.active && cString e.name.toList == name

def findByName (t : Table) (name : List UInt8) : Option (Fin MAX_USERS) :=
  (List.finRange MAX_USERS).find? fun i => named name (t.entries.get i)

def userTableAdd (t : Table) (name pass : List UInt8) : Bool × Table :=
  if name.length = 0 ∨ name.length > MAX_CRED_LEN then (false, t)
  else if pass.length = 0 ∨ pass.length > MAX_CRED_LEN then (false, t)
  else if (findByName t name).isSome then (false, t)
  else if t.count ≥ MAX_USERS then (false, t)
  else match (List.finRange MAX_USERS).find? fun i => !(t.entries.get i).active with
    | none => (false, t)
    | some i =>
      (true, { entries := t.entries.set i
                  { name := strncpy name, pass := strncpy pass, active := true }
               count := t.count + 1 })

def userTableRemove (t : Table) (name : List UInt8) : Bool × Table :=
  match findByName t name with
  | none => (false, t)
  | some i =>
    (true, { entries := t.entries.set i { t.entries.get i with active := false }
             count := t.count - 1 })

def userTableLookup (t : Table) (name pass : List UInt8) : Bool :=
  match findByName t name with
  | none => false
  | some i => cString (t.entries.get i).pass.toList == pass

/-- user_table_list: `cb` on the name of each active entry, in table order. -/
def userTableList {σ : Type*} (t : Table) (cb : σ → List UInt8 → σ) (ctx : σ) : σ :=
  t.entries.toList.foldl
    (fun ctx e => if e.active then cb ctx (cString e.name.toList) else ctx) ctx

section Names

/-- The names of the active entries. -/
def userNames (t : Table) : List (List UInt8) :=
  (t.entries.toList.filter (·.active)).map fun e => cString e.name.toList

theorem userTableList_eq {σ : Type*} (t : Table) (cb : σ → List UInt8 → σ) (ctx : σ) :
    userTableList t cb ctx = (userNames t).foldl cb ctx := by
  rw [userTableList, userNames, List.foldl_map, List.foldl_filter]

/-- Every name ends inside its array. -/
def NamesTerminated (t : Table) : Prop := ∀ e ∈ t.entries.toList, e.name[255] = 0

theorem NamesTerminated.init : NamesTerminated userTableInit := by
  intro e he
  simp only [userTableInit, Vector.toList_replicate, List.mem_replicate] at he
  rw [he.2]
  exact Vector.getElem_replicate _

private theorem NamesTerminated.set {t : Table} (h : NamesTerminated t) (i : Fin MAX_USERS)
    {e : UserEntry} (he : e.name[255] = 0) (count : ℕ) :
    NamesTerminated { entries := t.entries.set i e, count := count } := by
  intro e' he'
  rw [Vector.toList_set] at he'
  rcases List.mem_or_eq_of_mem_set he' with hold | rfl
  · exact h e' hold
  · exact he

theorem NamesTerminated.add {t : Table} (h : NamesTerminated t) (name pass : List UInt8) :
    NamesTerminated (userTableAdd t name pass).2 := by
  unfold userTableAdd
  split
  · exact h
  split
  · exact h
  split
  · exact h
  split
  · exact h
  split
  · exact h
  · apply h.set
    exact strncpy_last name

theorem NamesTerminated.remove {t : Table} (h : NamesTerminated t) (name : List UInt8) :
    NamesTerminated (userTableRemove t name).2 := by
  unfold userTableRemove
  split
  · exact h
  next i _ =>
    apply h.set
    apply h (t.entries.get i)
    exact Vector.mem_toList_iff.mpr (Vector.getElem_mem i.isLt)

theorem userNames_length (t : Table) : (userNames t).length ≤ MAX_USERS := by
  rw [userNames, List.length_map]
  exact Nat.le_trans (List.length_filter_le _ _) (Nat.le_of_eq Vector.length_toList)

theorem NamesTerminated.length_le {t : Table} (h : NamesTerminated t) :
    ∀ name ∈ userNames t, name.length ≤ MAX_CRED_LEN := by
  intro name hname
  obtain ⟨e, he, rfl⟩ := List.mem_map.mp hname
  exact cString_length_le (h e (List.mem_filter.mp he).1)

end Names

end SocksProxy.UserTable
