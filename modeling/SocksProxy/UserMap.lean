import SocksProxy.UserTable
import SocksProxy.Runs
import Mathlib.Data.Finmap

/-!
The user table as a finite map. The slots keep the bytes of users that are long
gone, and a counter is kept beside them; what callers see is a map from names
to passwords with at most MAX_USERS entries. Each call of the table is a step
of that map with the same answer.
-/
namespace SocksProxy.UserMap

open Auth UserTable Runs

/-- A string argument: its bytes before the NUL. -/
abbrev CString := { s : List UInt8 // 0 ∉ s }

inductive Op
  | add (name pass : CString)
  | remove (name : CString)
  | lookup (name pass : CString)
  | list
  | count
  deriving DecidableEq

/-- What a call returns; `names` are those that `cb` was called on, in order. -/
inductive Answer
  | added (ok : Bool)
  | removed (ok : Bool)
  | found (ok : Bool)
  | names (l : List (List UInt8))
  | count (n : ℕ)
  deriving DecidableEq

def call (t : Table) : Op → Answer × Table
  | .add name pass =>
    (.added (userTableAdd t name pass).1, (userTableAdd t name pass).2)
  | .remove name => (.removed (userTableRemove t name).1, (userTableRemove t name).2)
  | .lookup name pass => (.found (userTableLookup t name pass), t)
  | .list => (.names (userTableList t (fun l name => l ++ [name]) []), t)
  | .count => (.count t.count, t)

/-- One call and its answer. -/
def Calls (t : Table) (e : Op × Answer) (t' : Table) : Prop := call t e.1 = (e.2, t')

/-- The answers to a sequence of calls, and the table they leave. -/
def callAll (t : Table) : List Op → List (Op × Answer) × Table
  | [] => ([], t)
  | op :: ops =>
    let (answer, t) := call t op
    let (es, t) := callAll t ops
    ((op, answer) :: es, t)

theorem run_callAll (t : Table) (ops : List Op) :
    Run Calls t (callAll t ops).1 (callAll t ops).2 := by
  induction ops generalizing t with
  | nil => exact .nil
  | cons op ops ih =>
    have hstep : Calls t (op, (call t op).1) (call t op).2 := rfl
    exact Run.cons hstep (ih (call t op).2)

section Abstract

/-- The accounts that a table stands for: passwords by name. -/
abbrev Accounts := Finmap fun _ : List UInt8 => List UInt8

/-- From 1 to 255 bytes. -/
def Fits (s : List UInt8) : Prop := 1 ≤ s.length ∧ s.length ≤ MAX_CRED_LEN

/-- A new account needs a name and a password that fit, a new name and room. -/
def Addable (m : Accounts) (name pass : List UInt8) : Prop :=
  Fits name ∧ Fits pass ∧ name ∉ m ∧ m.keys.card < MAX_USERS

/-- What each call does to the accounts, and what it may answer. -/
def Permits (m : Accounts) (e : Op × Answer) (m' : Accounts) : Prop :=
  match e with
  | (.add name pass, .added true) => Addable m name pass ∧ m' = m.insert name.val pass.val
  | (.add name pass, .added false) => ¬ Addable m name pass ∧ m' = m
  | (.remove name, .removed true) => name.val ∈ m ∧ m' = m.erase name.val
  | (.remove name, .removed false) => name.val ∉ m ∧ m' = m
  | (.lookup name pass, .found ok) => (ok = true ↔ m.lookup name.val = some pass.val) ∧ m' = m
  | (.list, .names l) => l.Nodup ∧ (∀ name, name ∈ l ↔ name ∈ m) ∧ m' = m
  | (.count, .count n) => n = m.keys.card ∧ m' = m
  | _ => False

end Abstract

section Slots

variable {t : Table} {i : Fin MAX_USERS} {name pass : List UInt8}

def account (e : UserEntry) : List UInt8 × List UInt8 :=
  (cString e.name.toList, cString e.pass.toList)

/-- The name and password of each active entry, in table order. -/
def credentials (t : Table) : List (List UInt8 × List UInt8) :=
  (t.entries.toList.filter (·.active)).map account

theorem userNames_eq (t : Table) : userNames t = (credentials t).map Prod.fst := by
  rw [userNames, credentials, List.map_map]
  rfl

/-- One slot changes, the ones before and after it stay. -/
private theorem exists_split (t : Table) (i : Fin MAX_USERS) :
    ∃ pre post, t.entries.toList = pre ++ t.entries.get i :: post ∧
      ∀ e, (t.entries.set i e i.isLt).toList = pre ++ e :: post := by
  have hlt : i.val < t.entries.toList.length := by
    rw [Vector.length_toList]
    exact i.isLt
  refine ⟨t.entries.toList.take i, t.entries.toList.drop (i + 1), ?_, ?_⟩
  · have hget : t.entries.toList[i.val] = t.entries.get i := Vector.getElem_toList hlt
    rw [← hget, ← List.drop_eq_getElem_cons hlt, List.take_append_drop]
  · intro e
    rw [Vector.toList_set, List.set_eq_take_append_cons_drop, if_pos hlt]

private theorem credentials_of_split (count : ℕ) {entries : Vector UserEntry MAX_USERS}
    {pre post : List UserEntry} {e : UserEntry} (h : entries.toList = pre ++ e :: post) :
    credentials { entries := entries, count := count } =
      (pre.filter (·.active)).map account ++
        ((if e.active then [account e] else []) ++ (post.filter (·.active)).map account) := by
  rw [credentials, h, List.filter_append, List.map_append]
  cases he : e.active <;> simp [he]

/-- A free slot is filled. -/
private theorem credentials_fill (hfree : (t.entries.get i).active = false) (count : ℕ)
    {e : UserEntry} (he : e.active = true) :
    ∃ l r, credentials t = l ++ r ∧
      credentials { entries := t.entries.set i e i.isLt, count := count } = l ++ account e :: r := by
  obtain ⟨pre, post, hold, hnew⟩ := exists_split t i
  refine ⟨(pre.filter (·.active)).map account, (post.filter (·.active)).map account, ?_, ?_⟩
  · simpa only [hfree, Bool.false_eq_true, if_false, List.nil_append] using
      credentials_of_split t.count hold
  · simpa only [he, if_true, List.singleton_append] using
      credentials_of_split count (hnew e)

/-- An active slot is given up. -/
private theorem credentials_free (hused : (t.entries.get i).active = true) (count : ℕ)
    {e : UserEntry} (he : e.active = false) :
    ∃ l r, credentials t = l ++ account (t.entries.get i) :: r ∧
      credentials { entries := t.entries.set i e i.isLt, count := count } = l ++ r := by
  obtain ⟨pre, post, hold, hnew⟩ := exists_split t i
  refine ⟨(pre.filter (·.active)).map account, (post.filter (·.active)).map account, ?_, ?_⟩
  · simpa only [hused, if_true, List.singleton_append] using
      credentials_of_split t.count hold
  · simpa only [he, Bool.false_eq_true, if_false, List.nil_append] using
      credentials_of_split count (hnew e)

private theorem get_mem (t : Table) (i : Fin MAX_USERS) : t.entries.get i ∈ t.entries.toList :=
  Vector.mem_toList_iff.mpr (Vector.getElem_mem i.isLt)

private theorem exists_get {e : UserEntry} (he : e ∈ t.entries.toList) :
    ∃ i : Fin MAX_USERS, t.entries.get i = e := by
  obtain ⟨i, hi, heq⟩ := Vector.mem_iff_getElem.mp (Vector.mem_toList_iff.mp he)
  exact ⟨⟨i, hi⟩, heq⟩

/-- find_by_name finds a slot that has the name. -/
theorem findByName_some (h : findByName t name = some i) :
    (t.entries.get i).active = true ∧ cString (t.entries.get i).name.toList = name := by
  unfold findByName at h
  have hnamed := List.find?_some h
  simpa [named] using hnamed

theorem findByName_none : findByName t name = none ↔ name ∉ (credentials t).map Prod.fst := by
  rw [findByName, List.find?_eq_none, ← userNames_eq]
  constructor
  · intro h hmem
    obtain ⟨e, he, hname⟩ := List.mem_map.mp hmem
    obtain ⟨hin, hactive⟩ := List.mem_filter.mp he
    obtain ⟨i, rfl⟩ := exists_get hin
    apply h i (List.mem_finRange i)
    simp only [named, hactive, hname, beq_self_eq_true, Bool.and_self]
  · intro h i _ hnamed
    simp only [named, Bool.and_eq_true, beq_iff_eq] at hnamed
    apply h
    exact List.mem_map.mpr ⟨_, List.mem_filter.mpr ⟨get_mem t i, hnamed.1⟩, hnamed.2⟩

theorem account_mem (h : findByName t name = some i) :
    (name, cString (t.entries.get i).pass.toList) ∈ credentials t := by
  obtain ⟨hactive, hname⟩ := findByName_some h
  rw [← hname]
  exact List.mem_map.mpr ⟨_, List.mem_filter.mpr ⟨get_mem t i, hactive⟩, rfl⟩

/-- With fewer than MAX_USERS active entries a slot is free. -/
theorem exists_free (h : (credentials t).length < MAX_USERS) :
    ∃ i, (List.finRange MAX_USERS).find? (fun i => !(t.entries.get i).active) = some i ∧
      (t.entries.get i).active = false := by
  cases hfind : (List.finRange MAX_USERS).find? (fun i => !(t.entries.get i).active) with
  | some i =>
    have hfree := List.find?_some hfind
    exact ⟨i, rfl, by simpa using hfree⟩
  | none =>
    have hall : ∀ e ∈ t.entries.toList, e.active = true := by
      intro e he
      obtain ⟨i, rfl⟩ := exists_get he
      simpa using List.find?_eq_none.mp hfind i (List.mem_finRange i)
    rw [credentials, List.length_map, List.filter_eq_self.mpr hall, Vector.length_toList] at h
    omega

end Slots

section Representation

variable {t : Table} {m : Accounts} {name pass : List UInt8}

/-- The table stands for the accounts `m`. -/
structure Represents (t : Table) (m : Accounts) : Prop where
  count_eq : t.count = (t.entries.toList.filter (·.active)).length
  names_nodup : (userNames t).Nodup
  fits : ∀ c ∈ credentials t, Fits c.1 ∧ Fits c.2
  mem_iff : ∀ name pass, (name, pass) ∈ credentials t ↔ m.lookup name = some pass
  bounded : m.keys.card ≤ MAX_USERS

theorem Represents.mem_names (h : Represents t m) (name : List UInt8) :
    name ∈ userNames t ↔ name ∈ m := by
  rw [userNames_eq, Finmap.mem_iff, List.mem_map]
  constructor
  · rintro ⟨⟨n, pass⟩, hmem, rfl⟩
    exact ⟨pass, (h.mem_iff n pass).mp hmem⟩
  · rintro ⟨pass, hpass⟩
    exact ⟨(name, pass), (h.mem_iff name pass).mpr hpass, rfl⟩

theorem credentials_length (t : Table) :
    (credentials t).length = (t.entries.toList.filter (·.active)).length := by
  rw [credentials, List.length_map]

theorem Represents.card_eq (h : Represents t m) : m.keys.card = t.count := by
  have hkeys : m.keys = (userNames t).toFinset := by
    ext name
    rw [Finmap.mem_keys, List.mem_toFinset, h.mem_names]
  rw [hkeys, List.toFinset_card_of_nodup h.names_nodup, h.count_eq, userNames, List.length_map]

theorem Represents.init : Represents userTableInit ∅ := by
  have hnone : userTableInit.entries.toList.filter (·.active) = [] := by
    rw [List.filter_eq_nil_iff]
    intro e he
    simp only [userTableInit, Vector.toList_replicate, List.mem_replicate] at he
    simp [he.2]
  have hcred : credentials userTableInit = [] := by
    rw [credentials, hnone, List.map_nil]
  constructor
  · rw [hnone]
    rfl
  · rw [userNames_eq, hcred]
    exact List.nodup_nil
  · intro c hc
    rw [hcred] at hc
    exact absurd hc List.not_mem_nil
  · intro name pass
    rw [hcred, Finmap.lookup_empty]
    simp
  · exact Nat.zero_le _

/-- The names of a table are those of its accounts, so that `m.lookup` reads
the slot that find_by_name returns. -/
theorem Represents.lookup_eq (h : Represents t m) {i : Fin MAX_USERS}
    (hfind : findByName t name = some i) :
    m.lookup name = some (cString (t.entries.get i).pass.toList) :=
  (h.mem_iff _ _).mp (account_mem hfind)

theorem Represents.findByName_none (h : Represents t m) :
    findByName t name = none ↔ name ∉ m := by
  rw [UserMap.findByName_none, ← userNames_eq, h.mem_names]

/-- user_table_lookup reads the map. -/
theorem Represents.lookup (h : Represents t m) (name pass : List UInt8) :
    userTableLookup t name pass = true ↔ m.lookup name = some pass := by
  unfold userTableLookup
  cases hfind : findByName t name with
  | none =>
    have habs := Finmap.lookup_eq_none.mpr (h.findByName_none.mp hfind)
    simp [habs]
  | some i =>
    rw [h.lookup_eq hfind]
    simp

/-- A string that fits comes back from the array it was copied to. -/
private theorem cString_copied {s : List UInt8} (hfits : Fits s) (hnul : 0 ∉ s) :
    cString (strncpy s).toList = s := cString_strncpy hfits.2 hnul

/-- user_table_add where the account is new and there is room. -/
theorem Represents.add (h : Represents t m) (hname : 0 ∉ name) (hpass : 0 ∉ pass)
    (hadd : Addable m name pass) :
    (userTableAdd t name pass).1 = true ∧
      Represents (userTableAdd t name pass).2 (m.insert name pass) := by
  obtain ⟨hn, hp, hnew, hroom⟩ := hadd
  have hcount : t.count < MAX_USERS := by
    rw [← h.card_eq]
    exact hroom
  have hlen : (credentials t).length < MAX_USERS := by
    rw [credentials_length, ← h.count_eq]
    exact hcount
  obtain ⟨i, hfind, hfree⟩ := exists_free hlen
  have habsent : findByName t name = none := h.findByName_none.mpr hnew
  have hn' := hn
  have hp' := hp
  unfold Fits at hn' hp'
  have heq : userTableAdd t name pass = (true,
      { entries := t.entries.set i
          { name := strncpy name, pass := strncpy pass, active := true }
        count := t.count + 1 }) := by
    unfold userTableAdd
    rw [if_neg (by omega), if_neg (by omega), habsent]
    simp only [Option.isSome_none, Bool.false_eq_true, if_false]
    rw [if_neg (by omega), hfind]
  obtain ⟨l, r, hold, hstored⟩ := credentials_fill hfree (t.count + 1)
    (e := { name := strncpy name, pass := strncpy pass, active := true }) rfl
  have haccount : account { name := strncpy name, pass := strncpy pass, active := true } =
      (name, pass) := by
    rw [account, cString_copied hn hname, cString_copied hp hpass]
  rw [haccount] at hstored
  rw [heq]
  refine ⟨rfl, ?_⟩
  have hfresh : name ∉ (l ++ r).map Prod.fst := by
    rw [← hold, ← userNames_eq, h.mem_names]
    exact hnew
  constructor
  · rw [← credentials_length, hstored, List.length_append, List.length_cons]
    have hlength := h.count_eq
    rw [← credentials_length, hold, List.length_append] at hlength
    simp only
    omega
  · rw [userNames_eq, hstored]
    have hnodup := h.names_nodup
    rw [userNames_eq, hold] at hnodup
    rw [List.map_append, List.map_cons]
    rw [List.map_append] at hnodup hfresh
    exact List.nodup_middle.mpr (List.nodup_cons.mpr ⟨hfresh, hnodup⟩)
  · intro c hc
    rw [hstored] at hc
    rcases List.mem_append.mp hc with hc | hc
    · exact h.fits c (by rw [hold]; exact List.mem_append_left _ hc)
    rcases List.mem_cons.mp hc with rfl | hc
    · exact ⟨hn, hp⟩
    · exact h.fits c (by rw [hold]; exact List.mem_append_right _ hc)
  · intro n p
    have hmem : (n, p) ∈ l ++ (name, pass) :: r ↔ (n = name ∧ p = pass) ∨ (n, p) ∈ l ++ r := by
      simp only [List.mem_append, List.mem_cons, Prod.mk.injEq]
      tauto
    rw [hstored, hmem, ← hold, h.mem_iff]
    by_cases hnn : n = name
    · subst hnn
      rw [Finmap.lookup_insert, Finmap.lookup_eq_none.mpr hnew]
      simp [eq_comm]
    · rw [Finmap.lookup_insert_of_ne _ hnn]
      simp [hnn]
  · have hkeys : (m.insert name pass).keys = insert name m.keys := by
      ext n
      rw [Finmap.mem_keys, Finmap.mem_insert, Finset.mem_insert, Finmap.mem_keys]
    rw [hkeys, Finset.card_insert_of_notMem (by rwa [Finmap.mem_keys])]
    omega

/-- Otherwise user_table_add leaves the table alone. -/
theorem Represents.add_refused (h : Represents t m) (hadd : ¬ Addable m name pass) :
    userTableAdd t name pass = (false, t) := by
  unfold userTableAdd
  by_cases hn : name.length = 0 ∨ name.length > MAX_CRED_LEN
  · rw [if_pos hn]
  rw [if_neg hn]
  by_cases hp : pass.length = 0 ∨ pass.length > MAX_CRED_LEN
  · rw [if_pos hp]
  rw [if_neg hp]
  by_cases hfound : (findByName t name).isSome = true
  · rw [if_pos hfound]
  rw [if_neg hfound]
  by_cases hfull : t.count ≥ MAX_USERS
  · rw [if_pos hfull]
  exfalso
  apply hadd
  have habsent : findByName t name = none := by simpa using hfound
  refine ⟨?_, ?_, h.findByName_none.mp habsent, ?_⟩
  · unfold Fits
    omega
  · unfold Fits
    omega
  · rw [h.card_eq]
    omega

/-- user_table_remove of a name that is there. -/
theorem Represents.remove (h : Represents t m) (hname : name ∈ m) :
    (userTableRemove t name).1 = true ∧
      Represents (userTableRemove t name).2 (m.erase name) := by
  cases hfind : findByName t name with
  | none => exact absurd hname (h.findByName_none.mp hfind)
  | some i =>
  obtain ⟨hused, hname'⟩ := findByName_some hfind
  have heq : userTableRemove t name = (true,
      { entries := t.entries.set i { t.entries.get i with active := false }
        count := t.count - 1 }) := by
    unfold userTableRemove
    rw [hfind]
  obtain ⟨l, r, hold, hleft⟩ := credentials_free hused (t.count - 1)
    (e := { t.entries.get i with active := false }) rfl
  have haccount : (account (t.entries.get i)).1 = name := hname'
  have hnodup := h.names_nodup
  rw [userNames_eq, hold, List.map_append, List.map_cons, haccount, List.nodup_middle,
    List.nodup_cons, ← List.map_append] at hnodup
  rw [heq]
  refine ⟨rfl, ?_⟩
  constructor
  · rw [← credentials_length, hleft, List.length_append]
    have hlength := h.count_eq
    rw [← credentials_length, hold, List.length_append, List.length_cons] at hlength
    simp only
    omega
  · rw [userNames_eq, hleft]
    exact hnodup.2
  · intro c hc
    rw [hleft] at hc
    apply h.fits c
    rw [hold]
    rcases List.mem_append.mp hc with hc | hc
    · exact List.mem_append_left _ hc
    · exact List.mem_append_right _ (List.mem_cons_of_mem _ hc)
  · intro n p
    rw [hleft]
    by_cases hnn : n = name
    · subst hnn
      rw [Finmap.lookup_erase]
      have hgone : (n, p) ∉ l ++ r := by
        intro hmem
        exact hnodup.1 (List.mem_map.mpr ⟨(n, p), hmem, rfl⟩)
      simp [hgone]
    · rw [Finmap.lookup_erase_ne hnn, ← h.mem_iff, hold]
      have hother : (n, p) ≠ account (t.entries.get i) := by
        intro hsame
        apply hnn
        rw [← haccount, ← hsame]
      simp [hother]
  · have hcard : (m.erase name).keys.card ≤ m.keys.card := by
      rw [Finmap.keys_erase]
      exact Finset.card_erase_le
    have hbound := h.bounded
    omega

theorem Represents.remove_refused (h : Represents t m) (hname : name ∉ m) :
    userTableRemove t name = (false, t) := by
  unfold userTableRemove
  rw [h.findByName_none.mpr hname]

/-- user_table_list visits the names that are there. -/
theorem list_visits (t : Table) :
    userTableList t (fun l name => l ++ [name]) [] = userNames t := by
  have hfold : ∀ (names l : List (List UInt8)),
      names.foldl (fun l name => l ++ [name]) l = l ++ names := by
    intro names
    induction names with
    | nil => simp
    | cons n names ih => simp [ih]
  rw [userTableList_eq, hfold, List.nil_append]

/-- Every call is a step of the map, with the same answer. -/
theorem Represents.step (h : Represents t m) {e : Op × Answer} {t' : Table} (hcall : Calls t e t') :
    ∃ m', Permits m e m' ∧ Represents t' m' := by
  obtain ⟨op, answer⟩ := e
  cases op with
  | add name pass =>
    obtain ⟨rfl, rfl⟩ := Prod.mk.inj hcall
    by_cases hadd : Addable m name pass
    · obtain ⟨hok, hrep⟩ := h.add name.property pass.property hadd
      rw [hok]
      exact ⟨_, ⟨hadd, rfl⟩, hrep⟩
    · rw [h.add_refused hadd]
      exact ⟨m, ⟨hadd, rfl⟩, h⟩
  | remove name =>
    obtain ⟨rfl, rfl⟩ := Prod.mk.inj hcall
    by_cases hname : name.val ∈ m
    · obtain ⟨hok, hrep⟩ := h.remove hname
      rw [hok]
      exact ⟨_, ⟨hname, rfl⟩, hrep⟩
    · rw [h.remove_refused hname]
      exact ⟨m, ⟨hname, rfl⟩, h⟩
  | lookup name pass =>
    obtain ⟨rfl, rfl⟩ := Prod.mk.inj hcall
    exact ⟨m, ⟨h.lookup name pass, rfl⟩, h⟩
  | list =>
    obtain ⟨rfl, rfl⟩ := Prod.mk.inj hcall
    rw [list_visits]
    exact ⟨m, ⟨h.names_nodup, h.mem_names, rfl⟩, h⟩
  | count =>
    obtain ⟨rfl, rfl⟩ := Prod.mk.inj hcall
    exact ⟨m, ⟨h.card_eq.symm, rfl⟩, h⟩

/-- A whole run of calls is a run of the map. -/
theorem Represents.run {es : List (Op × Answer)} {t' : Table} (h : Represents t m)
    (hrun : Run Calls t es t') : ∃ m', Run Permits m es m' ∧ Represents t' m' := by
  induction hrun with
  | nil => exact ⟨m, .nil, h⟩
  | snoc _ hlast ih =>
    obtain ⟨m₁, hm₁, h₁⟩ := ih
    obtain ⟨m₂, hm₂, h₂⟩ := h₁.step hlast
    exact ⟨m₂, .snoc hm₁ hm₂, h₂⟩

end Representation

/-- A table that calls of user_table.c have made. -/
def Reached (t : Table) : Prop := ∃ ops, t = (callAll userTableInit ops).2

theorem Reached.represents {t : Table} (h : Reached t) : ∃ m, Represents t m := by
  obtain ⟨ops, rfl⟩ := h
  obtain ⟨m, -, hrep⟩ := Represents.init.run (run_callAll userTableInit ops)
  exact ⟨m, hrep⟩

/-- Whatever is called, the answers are those of a map from names to passwords
that the table stands for; a call that fails leaves every byte of the table as
it is, and a name that was just added has the password it was added with and no
other. -/
theorem bounded_map (ops : List Op) :
    (∃ m, Run Permits ∅ (callAll userTableInit ops).1 m ∧
      Represents (callAll userTableInit ops).2 m) ∧
    (∀ op answer t, Calls (callAll userTableInit ops).2 (op, answer) t →
      answer = .added true ∨ answer = .removed true ∨ t = (callAll userTableInit ops).2) ∧
    ∀ name pass t, Calls (callAll userTableInit ops).2 (.add name pass, .added true) t →
      ∀ other, userTableLookup t name other = true ↔ other = pass.val := by
  obtain ⟨m, hrun, hrep⟩ := Represents.init.run (run_callAll userTableInit ops)
  refine ⟨⟨m, hrun, hrep⟩, ?_, ?_⟩
  · intro op answer t hcall
    cases op with
    | add name pass =>
      obtain ⟨rfl, rfl⟩ := Prod.mk.inj hcall
      by_cases hadd : Addable m name pass
      · left
        rw [(hrep.add name.property pass.property hadd).1]
      · right; right
        rw [hrep.add_refused hadd]
    | remove name =>
      obtain ⟨rfl, rfl⟩ := Prod.mk.inj hcall
      by_cases hname : name.val ∈ m
      · right; left
        rw [(hrep.remove hname).1]
      · right; right
        rw [hrep.remove_refused hname]
    | lookup name pass => exact Or.inr (Or.inr (Prod.mk.inj hcall).2.symm)
    | list => exact Or.inr (Or.inr (Prod.mk.inj hcall).2.symm)
    | count => exact Or.inr (Or.inr (Prod.mk.inj hcall).2.symm)
  · intro name pass t hcall other
    obtain ⟨m', hstep, hrep'⟩ := hrep.step hcall
    obtain ⟨-, rfl⟩ := hstep
    rw [hrep'.lookup, Finmap.lookup_insert, Option.some.injEq]
    exact eq_comm

/-- A name that is taken, given up and taken again. -/
example : (callAll userTableInit
      [.add ⟨[97], by decide⟩ ⟨[49], by decide⟩, .add ⟨[97], by decide⟩ ⟨[50], by decide⟩,
        .remove ⟨[97], by decide⟩, .add ⟨[97], by decide⟩ ⟨[50], by decide⟩,
        .lookup ⟨[97], by decide⟩ ⟨[49], by decide⟩, .list, .count]).1.map Prod.snd =
    [.added true, .added false, .removed true, .added true, .found false, .names [[97]],
      .count 1] := by decide +kernel

end SocksProxy.UserMap
