import Mathlib.Data.List.Basic

/-!
Loading a users file. Lines come through a buffer of 512 bytes, so a longer line
is read as several pieces, and each piece is then handled as if it were a line.
The users that result are compared with those of the lines themselves.
-/
namespace SocksProxy.UsersFile

def NUL : UInt8 := 0
def LF : UInt8 := 10
def CR : UInt8 := 13
def HASH : UInt8 := 35
def COLON : UInt8 := 58

def MAX_USERS : ℕ := 10

/-- `sizeof(line)`, and the room for each user in `users_storage`. -/
def LINE_SIZE : ℕ := 512

structure Users where
  name : List UInt8
  pass : List UInt8
  deriving DecidableEq

inductive FileError
  | passwordNotFound
  | maximumReached
  deriving DecidableEq

/-- The bytes that `fgets` stores when it may read `n` of them, and the rest of
the file. Nothing stored stands for NULL. -/
def fgets : ℕ → List UInt8 → List UInt8 × List UInt8
  | 0, input => ([], input)
  | _ + 1, [] => ([], [])
  | n + 1, c :: input =>
    if c = LF then ([c], input) else (c :: (fgets n input).1, (fgets n input).2)

/-- `line[strcspn(line, "\r\n")] = '\0'`, and what a string function then sees. -/
def cut (line : List UInt8) : List UInt8 :=
  line.takeWhile fun c => c != NUL && c != CR && c != LF

/-- Neither empty nor a comment. -/
def kept (line : List UInt8) : Bool := line != [] && line.head? != some HASH

def splitAtColon (s : List UInt8) : Users where
  name := s.takeWhile (· != COLON)
  pass := (s.dropWhile (· != COLON)).drop 1

def user (s : List UInt8) : Except FileError Users :=
  if COLON ∈ s then .ok (splitAtColon s) else .error .passwordNotFound

def addUser (s : List UInt8) (users : List Users) : Except FileError (List Users) :=
  if MAX_USERS ≤ users.length then .error .maximumReached
  else (user s).map fun u => users ++ [u]

/-- The body of the loop. -/
def addLine (users : List Users) (line : List UInt8) : Except FileError (List Users) :=
  if !kept (cut line) then .ok users
  else if MAX_USERS ≤ users.length then .error .maximumReached
  else addUser (cut line) users

def readLines : ℕ → List UInt8 → List Users → Except FileError (List Users)
  | 0, _, users => .ok users
  | fuel + 1, input, users =>
    if (fgets (LINE_SIZE - 1) input).1 = [] then .ok users
    else
      addLine users (fgets (LINE_SIZE - 1) input).1 >>=
        readLines fuel (fgets (LINE_SIZE - 1) input).2

/-- Each turn but the last takes a byte of the file. -/
def usersFile (content : List UInt8) (users : List Users) : Except FileError (List Users) :=
  readLines (content.length + 1) content users

section Fgets

theorem fgets_short (n : ℕ) (l : List UInt8) (hl : LF ∉ l) (hlen : l.length ≤ n) :
    fgets n l = (l, []) := by
  induction l generalizing n with
  | nil => cases n <;> rfl
  | cons c l ih =>
    obtain ⟨n, rfl⟩ := Nat.exists_eq_add_of_lt (Nat.lt_of_lt_of_le (Nat.succ_pos _) hlen)
    simp only [List.mem_cons, not_or, List.length_cons, Nat.zero_add] at hl hlen ⊢
    rw [fgets, if_neg (Ne.symm hl.1), ih n hl.2 (by omega)]

theorem fgets_line (n : ℕ) (l rest : List UInt8) (hl : LF ∉ l) (hlen : l.length < n) :
    fgets n (l ++ LF :: rest) = (l ++ [LF], rest) := by
  induction l generalizing n with
  | nil =>
    obtain ⟨n, rfl⟩ := Nat.exists_eq_add_of_lt hlen
    simp [fgets]
  | cons c l ih =>
    obtain ⟨n, rfl⟩ := Nat.exists_eq_add_of_lt (Nat.lt_of_le_of_lt (Nat.zero_le _) hlen)
    simp only [List.mem_cons, not_or, List.length_cons, Nat.zero_add] at hl hlen ⊢
    rw [List.cons_append, fgets, if_neg (Ne.symm hl.1), ih n hl.2 (by omega)]
    rfl

theorem fgets_long (n : ℕ) (l rest : List UInt8) (hl : LF ∉ l) (hlen : n ≤ l.length) :
    fgets n (l ++ rest) = (l.take n, l.drop n ++ rest) := by
  induction n generalizing l with
  | zero => simp [fgets]
  | succ n ih =>
    cases l with
    | nil => simp at hlen
    | cons c l =>
      simp only [List.mem_cons, not_or, List.length_cons, Nat.add_le_add_iff_right] at hl hlen
      rw [List.cons_append, fgets, if_neg (Ne.symm hl.1), ih l hl.2 hlen]
      simp

end Fgets

section Pieces

/-- The pieces of at most 511 bytes that one line is read in. -/
def linePieces (l : List UInt8) : List (List UInt8) :=
  (List.range (l.length / (LINE_SIZE - 1) + 1)).map fun k =>
    (l.drop ((LINE_SIZE - 1) * k)).take (LINE_SIZE - 1)

/-- Those pieces of a line that are taken for users. -/
def texts (l : List UInt8) : List (List UInt8) := ((linePieces l).map cut).filter kept

def addText (users : List Users) (t : List UInt8) : Except FileError (List Users) :=
  if MAX_USERS ≤ users.length then .error .maximumReached else addUser t users

theorem linePieces_short (l : List UInt8) (hlen : l.length < LINE_SIZE - 1) :
    linePieces l = [l] := by
  rw [linePieces, Nat.div_eq_of_lt hlen]
  simp [List.take_of_length_le (Nat.le_of_lt hlen)]

theorem linePieces_long (l : List UInt8) (hlen : LINE_SIZE - 1 ≤ l.length) :
    linePieces l = l.take (LINE_SIZE - 1) :: linePieces (l.drop (LINE_SIZE - 1)) := by
  have hcount : l.length / (LINE_SIZE - 1) = (l.length - (LINE_SIZE - 1)) / (LINE_SIZE - 1) + 1 :=
    Nat.div_eq_sub_div (by decide) hlen
  rw [linePieces, linePieces, hcount, List.range_succ_eq_map, List.length_drop]
  simp only [List.map_cons, Nat.mul_zero, List.drop_zero, List.map_map, List.cons.injEq, true_and]
  refine List.map_congr_left fun k _ => ?_
  simp only [Function.comp_apply, Nat.succ_eq_add_one, List.drop_drop]
  rw [Nat.mul_add, Nat.mul_one, Nat.add_comm]

theorem texts_short (l : List UInt8) (hlen : l.length < LINE_SIZE - 1) :
    texts l = [cut l].filter kept := by
  rw [texts, linePieces_short l hlen]
  rfl

theorem texts_long (l : List UInt8) (hlen : LINE_SIZE - 1 ≤ l.length) :
    texts l = [cut (l.take (LINE_SIZE - 1))].filter kept ++ texts (l.drop (LINE_SIZE - 1)) := by
  rw [texts, linePieces_long l hlen, List.map_cons, ← List.singleton_append, List.filter_append]
  rfl

theorem texts_nil : texts [] = [] := rfl

@[simp] theorem cut_append_LF (l : List UInt8) : cut (l ++ [LF]) = cut l := by
  induction l with
  | nil => rfl
  | cons c l ih =>
    simp only [cut, List.cons_append, List.takeWhile_cons] at ih ⊢
    rw [ih]

theorem addLine_eq (users : List Users) (line : List UInt8) :
    addLine users line = ([cut line].filter kept).foldlM addText users := by
  cases hkept : kept (cut line) with
  | false =>
    simp only [addLine, hkept, List.filter_cons, List.filter_nil]
    rfl
  | true => simp [addLine, addText, hkept]

end Pieces

section Loop

/-- What is taken for users in a whole file. -/
def fileTexts (content : List UInt8) : List (List UInt8) := (content.splitOn LF).flatMap texts

theorem fileTexts_line (l rest : List UInt8) (hl : LF ∉ l) :
    fileTexts (l ++ LF :: rest) = texts l ++ fileTexts rest := by
  rw [fileTexts, List.splitOn_append_cons_self_of_not_mem hl, List.flatMap_cons]
  rfl

theorem fileTexts_last (l : List UInt8) (hl : LF ∉ l) : fileTexts l = texts l := by
  rw [fileTexts, List.splitOn_eq_singleton hl, List.flatMap_cons, List.flatMap_nil,
    List.append_nil]

/-- One call of `fgets` takes the next piece off. -/
theorem fileTexts_fgets (input : List UInt8) :
    fileTexts input =
      [cut (fgets (LINE_SIZE - 1) input).1].filter kept ++
        fileTexts (fgets (LINE_SIZE - 1) input).2 := by
  by_cases hmem : LF ∈ input
  · obtain ⟨l, rest, rfl, hl⟩ := List.eq_append_cons_of_mem hmem
    rw [fileTexts_line l rest hl]
    by_cases hlen : l.length < LINE_SIZE - 1
    · rw [fgets_line _ l rest hl hlen, texts_short l hlen, cut_append_LF]
    · have hdrop : LF ∉ l.drop (LINE_SIZE - 1) := fun h => hl (List.mem_of_mem_drop h)
      rw [fgets_long _ l (LF :: rest) hl (Nat.not_lt.mp hlen), texts_long l (Nat.not_lt.mp hlen),
        fileTexts_line _ rest hdrop, List.append_assoc]
  · rw [fileTexts_last input hmem]
    by_cases hlen : input.length < LINE_SIZE - 1
    · rw [fgets_short _ input hmem (Nat.le_of_lt hlen), texts_short input hlen,
        fileTexts_last [] List.not_mem_nil, texts_nil, List.append_nil]
    · have hdrop : LF ∉ input.drop (LINE_SIZE - 1) := fun h => hmem (List.mem_of_mem_drop h)
      have hread := fgets_long (LINE_SIZE - 1) input [] hmem (Nat.not_lt.mp hlen)
      rw [List.append_nil, List.append_nil] at hread
      rw [hread, texts_long input (Nat.not_lt.mp hlen), fileTexts_last _ hdrop]

theorem fgets_append (n : ℕ) (input : List UInt8) :
    (fgets n input).1 ++ (fgets n input).2 = input := by
  fun_induction fgets n input with
  | case1 => rfl
  | case2 => rfl
  | case3 => simp [*]
  | case4 n c input hc ih => simp [ih]

theorem fgets_nil (n : ℕ) (input : List UInt8) (h : (fgets (n + 1) input).1 = []) :
    input = [] := by
  cases input with
  | nil => rfl
  | cons c input =>
    rw [fgets] at h
    split at h <;> simp at h

/-- The turns counted by the length of the file are enough to read all of it. -/
theorem readLines_eq (fuel : ℕ) (input : List UInt8) (users : List Users)
    (hfuel : input.length < fuel) :
    readLines fuel input users = (fileTexts input).foldlM addText users := by
  induction fuel generalizing input users with
  | zero => omega
  | succ fuel ih =>
    rw [readLines]
    split
    next h =>
      rw [fgets_nil _ input h]
      rfl
    next h =>
      have hpos : 0 < (fgets (LINE_SIZE - 1) input).1.length := List.length_pos_iff.mpr h
      have hlen := congrArg List.length (fgets_append (LINE_SIZE - 1) input)
      rw [List.length_append] at hlen
      rw [fileTexts_fgets input, List.foldlM_append, addLine_eq]
      congr 1
      funext users
      exact ih _ users (by omega)

theorem usersFile_eq (content : List UInt8) (users : List Users) :
    usersFile content users = (fileTexts content).foldlM addText users :=
  readLines_eq _ content users (Nat.lt_succ_self _)

theorem addText_ok (users users' : List Users) (t : List UInt8)
    (h : addText users t = .ok users') :
    COLON ∈ t ∧ users.length < MAX_USERS ∧ users' = users ++ [splitAtColon t] := by
  rw [addText] at h
  split at h
  next => cases h
  next hroom =>
    rw [addUser, if_neg hroom, user] at h
    split at h
    next hcolon => exact ⟨hcolon, Nat.not_le.mp hroom, (Except.ok.inj h).symm⟩
    next => cases h

theorem foldlM_addText (ts : List (List UInt8)) (users users' : List Users)
    (h : ts.foldlM addText users = .ok users') :
    (∀ t ∈ ts, COLON ∈ t) ∧ users' = users ++ ts.map splitAtColon := by
  induction ts generalizing users with
  | nil =>
    have heq : users = users' := Except.ok.inj h
    simp [heq]
  | cons t ts ih =>
    rw [List.foldlM_cons] at h
    cases hadd : addText users t with
    | error e =>
      rw [hadd] at h
      cases h
    | ok middle =>
      rw [hadd] at h
      obtain ⟨hcolon, -, rfl⟩ := addText_ok users middle t hadd
      obtain ⟨hcolons, rfl⟩ := ih _ h
      refine ⟨List.forall_mem_cons.mpr ⟨hcolon, hcolons⟩, ?_⟩
      rw [List.map_cons, List.append_assoc, List.singleton_append]

end Loop

section Lines

/-- The users that the lines of the file name: one for each line that is not
blank and does not start with '#', split at its first ':'. The text of a line
ends at its carriage return, if it has one, and, being a C string, at a NUL. -/
def lineUsers (l : List UInt8) : List Users := ([cut l].filter kept).map splitAtColon

def expectedUsers (content : List UInt8) : List Users := (content.splitOn LF).flatMap lineUsers

/-- A line whose pieces give what the line gives: the text of a user fits the
first piece, and no later piece starts as a user does. -/
def Whole (l : List UInt8) : Prop :=
  (kept (cut l) = true → (cut l).length ≤ LINE_SIZE - 1) ∧
    ∀ k, 0 < k → kept (cut ((l.drop ((LINE_SIZE - 1) * k)).take (LINE_SIZE - 1))) = false

/-- The first piece of a line starts as the line does. -/
theorem kept_take (t : List UInt8) : kept (t.take (LINE_SIZE - 1)) = kept t := by
  cases t with
  | nil => rfl
  | cons c t => rfl

theorem splitAtColon_append (t : List UInt8) (hcolon : COLON ∈ t) :
    (splitAtColon t).name ++ COLON :: (splitAtColon t).pass = t := by
  obtain ⟨name, pass, rfl, hname⟩ := List.eq_append_cons_of_mem hcolon
  have hne : ∀ c ∈ name, (c != COLON) = true := fun c hc =>
    bne_iff_ne.mpr fun heq => hname (heq ▸ hc)
  simp [splitAtColon, List.takeWhile_append_of_pos hne, List.dropWhile_append_of_pos hne]

/-- A text cut short is split as the whole text is only when nothing was cut. -/
theorem splitAtColon_take (t : List UInt8) (n : ℕ) (hcolon : COLON ∈ t.take n) :
    splitAtColon (t.take n) = splitAtColon t ↔ t.length ≤ n := by
  constructor
  · intro heq
    have htake := splitAtColon_append _ hcolon
    rw [heq, splitAtColon_append _ (List.mem_of_mem_take hcolon)] at htake
    have hlen := congrArg List.length htake
    rw [List.length_take] at hlen
    omega
  · intro hlen
    rw [List.take_of_length_le hlen]

/-- The pieces of a line after the first. -/
def laterTexts (l : List UInt8) : List (List UInt8) :=
  (((List.range (l.length / (LINE_SIZE - 1))).map fun k =>
    (l.drop ((LINE_SIZE - 1) * (k + 1))).take (LINE_SIZE - 1)).map cut).filter kept

theorem texts_eq (l : List UInt8) :
    texts l = [(cut l).take (LINE_SIZE - 1)].filter kept ++ laterTexts l := by
  have hfirst : cut (l.take (LINE_SIZE - 1)) = (cut l).take (LINE_SIZE - 1) :=
    List.take_takeWhile.symm
  rw [texts, linePieces, List.range_succ_eq_map, List.map_cons, List.map_cons,
    ← List.singleton_append, List.filter_append, Nat.mul_zero, List.drop_zero, hfirst, laterTexts,
    List.map_map, List.map_map, List.map_map]
  rfl

theorem laterTexts_eq_nil (l : List UInt8) :
    laterTexts l = [] ↔
      ∀ k, 0 < k →
        kept (cut ((l.drop ((LINE_SIZE - 1) * k)).take (LINE_SIZE - 1))) = false := by
  rw [laterTexts, List.filter_eq_nil_iff]
  simp only [List.map_map, List.mem_map, List.mem_range, Function.comp_apply,
    forall_exists_index, and_imp, forall_apply_eq_imp_iff₂, Bool.not_eq_true]
  constructor
  · intro h k hk
    by_cases hlt : k - 1 < l.length / (LINE_SIZE - 1)
    · have hpiece := h (k - 1) hlt
      rwa [Nat.sub_add_cancel hk] at hpiece
    · -- Past the end of the line there is nothing to read.
      have hle : l.length / (LINE_SIZE - 1) + 1 ≤ k := by omega
      have hend : l.length ≤ (LINE_SIZE - 1) * k :=
        Nat.le_of_lt (Nat.lt_of_lt_of_le (Nat.lt_mul_div_succ _ (by decide))
          (Nat.mul_le_mul_left _ hle))
      rw [List.drop_of_length_le hend]
      rfl
  · exact fun h k _ => h (k + 1) (Nat.succ_pos k)

/-- One line gives at least as many users as it should. -/
theorem length_lineUsers_le (l : List UInt8) :
    (lineUsers l).length ≤ ((texts l).map splitAtColon).length := by
  rw [lineUsers, texts_eq]
  cases hkept : kept (cut l) <;> simp [kept_take, hkept]

theorem texts_whole_iff (l : List UInt8) (hcolon : ∀ t ∈ texts l, COLON ∈ t) :
    (texts l).map splitAtColon = lineUsers l ↔ Whole l := by
  rw [Whole, ← laterTexts_eq_nil, lineUsers]
  rw [texts_eq] at hcolon ⊢
  cases hkept : kept (cut l) with
  | false => simp [kept_take, hkept]
  | true =>
    have hfirst : COLON ∈ (cut l).take (LINE_SIZE - 1) :=
      hcolon _ (by simp [kept_take, hkept])
    simp [kept_take, hkept, splitAtColon_take _ _ hfirst]

section Pointwise

variable {α β : Type} (f g : α → List β) (l : List α)

theorem length_flatMap_le (hle : ∀ a ∈ l, (g a).length ≤ (f a).length) :
    (l.flatMap g).length ≤ (l.flatMap f).length := by
  induction l with
  | nil => exact Nat.le_refl _
  | cons a l ih =>
    rw [List.flatMap_cons, List.flatMap_cons, List.length_append, List.length_append]
    exact Nat.add_le_add (hle a List.mem_cons_self)
      (ih fun b hb => hle b (List.mem_cons_of_mem a hb))

/-- Of two ways to expand a list where one never gives fewer entries, the
results agree only when every element is expanded the same way. -/
theorem flatMap_eq_iff (hle : ∀ a ∈ l, (g a).length ≤ (f a).length) :
    l.flatMap f = l.flatMap g ↔ ∀ a ∈ l, f a = g a := by
  induction l with
  | nil => simp
  | cons a l ih =>
    have hhead := hle a List.mem_cons_self
    have htail : ∀ b ∈ l, (g b).length ≤ (f b).length := fun b hb =>
      hle b (List.mem_cons_of_mem a hb)
    rw [List.flatMap_cons, List.flatMap_cons, List.forall_mem_cons, ← ih htail]
    constructor
    · intro heq
      have hrest := length_flatMap_le f g l htail
      have htotal := congrArg List.length heq
      rw [List.length_append, List.length_append] at htotal
      exact List.append_inj heq (by omega)
    · rintro ⟨hfirst, hrest⟩
      rw [hfirst, hrest]

end Pointwise

/-- The users read are those of the lines exactly when every line is whole. -/
theorem users_by_line_iff (content : List UInt8) (users users' : List Users)
    (hread : usersFile content users = .ok users') :
    users' = users ++ expectedUsers content ↔ ∀ l ∈ content.splitOn LF, Whole l := by
  rw [usersFile_eq] at hread
  obtain ⟨hcolon, rfl⟩ := foldlM_addText _ users users' hread
  rw [List.append_cancel_left_eq, fileTexts, expectedUsers, List.map_flatMap,
    flatMap_eq_iff _ _ _ fun l _ => length_lineUsers_le l]
  refine forall₂_congr fun l hl => texts_whole_iff l fun t ht => ?_
  exact hcolon t (List.mem_flatMap.mpr ⟨l, hl, ht⟩)

/-- A line of 511 bytes, the longest that the buffer holds, and a comment. -/
theorem users_by_line_iff_short :
    [⟨[97], List.replicate 509 98⟩] =
        [] ++ expectedUsers (97 :: COLON :: List.replicate 509 98 ++ [LF, HASH, LF]) ↔
      ∀ l ∈ (97 :: COLON :: List.replicate 509 98 ++ [LF, HASH, LF]).splitOn LF, Whole l :=
  users_by_line_iff _ [] _ (by decide +kernel)

/-- A comment of 514 bytes: its last three bytes come back as a user. -/
theorem long_comment_makes_user :
    usersFile (HASH :: List.replicate 510 120 ++ [97, COLON, 98, LF]) [] =
        .ok [⟨[97], [98]⟩] ∧
      expectedUsers (HASH :: List.replicate 510 120 ++ [97, COLON, 98, LF]) = [] := by
  decide +kernel

end Lines

end SocksProxy.UsersFile
