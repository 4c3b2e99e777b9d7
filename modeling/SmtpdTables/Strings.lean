import Mathlib.Data.List.DropRight
import Mathlib.Data.List.Basic

namespace SmtpdTables

/-!
# C strings and the string routines of the table decoders

The table backends keep keys and values as NUL-terminated C strings and take
them apart with `strchr`, `strsep` and two hand-written whitespace loops.  A
C string is modelled by its characters before the terminator.  The structure
below keeps a NUL from occurring inside, so that no later proof has to show
again that the text of a stored value is the whole of it.

A raw byte buffer, such as the bytes a db(3) record hands back, is a plain
`List Char`.  Reading it as a C string stops at its first NUL.  The C code
would read past the end of a buffer that holds none; the model stops there.
-/

/-- A C string without its terminator.  The field rules out an inner NUL. -/
@[ext] structure CString where
  chars : List Char
  nulFree : '\x00' ∉ chars
  deriving DecidableEq

/-- The C string at the start of a buffer: its bytes before the first NUL. -/
def cstr (buf : List Char) : CString :=
  ⟨buf.takeWhile (· != '\x00'), fun h => by simpa using List.mem_takeWhile_imp h⟩

/-- `isspace(3)` in the C locale. -/
def isspace (c : Char) : Bool :=
  c == ' ' || c == '\t' || c == '\n' || c == '\x0b' || c == '\x0c' || c == '\r'

/-- `strchr(s, c)` for a character `c` other than NUL: the offset of its first
occurrence before the terminator, `none` standing for `NULL`. -/
def strchr (c : Char) : List Char → Option Nat
  | [] => none
  | d :: rest => if d = '\x00' then none else if d = c then some 0 else (strchr c rest).map (· + 1)

/-- `strsep(&line, delim)`: the token before the first delimiter or NUL, and where
`line` points afterwards: just past that delimiter, or `none` (`NULL`) when the
token ended the string. -/
def strsep (delim : Char) : List Char → List Char × Option (List Char)
  | [] => ([], none)
  | c :: rest =>
    if c = '\x00' then ([], none)
    else if c = delim then ([], some rest)
    else
      let next := strsep delim rest
      (c :: next.1, next.2)

/-- The loop `while (subrcpt < endp && isspace(*endp)) *endp-- = '\0'` of the
alias decoders: the offset it leaves `endp` at.  It never passes the first byte. -/
def trailingEnd (subrcpt : List Char) : Nat → Nat
  | 0 => 0
  | endp + 1 =>
    if isspace (subrcpt.getD (endp + 1) '\x00') then trailingEnd subrcpt endp else endp + 1

/-- A token cut by that loop, started at `endp = subrcpt + strlen(subrcpt) - 1`. -/
def stripTrailing (subrcpt : List Char) : List Char :=
  subrcpt.take (trailingEnd subrcpt (subrcpt.length - 1) + 1)

/-- A token without its leading and trailing whitespace: the reference the
decoders' two loops are compared with. -/
def trim (token : List Char) : List Char :=
  (token.dropWhile isspace).rdropWhile isspace

/-! ## Reading a buffer as a C string -/

@[simp] theorem isspace_nul : isspace '\x00' = false := rfl

@[simp] theorem cstr_nil : cstr [] = ⟨[], List.not_mem_nil _⟩ := rfl

theorem cstr_chars_cons (c : Char) (rest : List Char) :
    (cstr (c :: rest)).chars = if c = '\x00' then [] else c :: (cstr rest).chars := by
  by_cases nul : c = '\x00' <;> simp [cstr, List.takeWhile_cons, nul]

/-- A NUL-free list is its own C string. -/
theorem cstr_chars_of_nulFree : ∀ {l : List Char}, '\x00' ∉ l → (cstr l).chars = l
  | [], _ => rfl
  | c :: rest, free => by
    rw [List.mem_cons, not_or] at free
    rw [cstr_chars_cons, if_neg (Ne.symm free.1), cstr_chars_of_nulFree free.2]

@[simp] theorem cstr_chars (s : CString) : cstr s.chars = s := by
  cases s with
  | mk chars free => exact CString.mk.injEq _ _ _ _ ▸ cstr_chars_of_nulFree free

/-- The bytes after the terminator of a buffer are never read. -/
@[simp] theorem cstr_append_nul (s : CString) (junk : List Char) :
    cstr (s.chars ++ '\x00' :: junk) = s := by
  cases s with
  | mk chars free =>
    apply CString.ext
    show (cstr (chars ++ '\x00' :: junk)).chars = chars
    induction chars with
    | nil => simp [cstr_chars_cons]
    | cons c rest inductionHypothesis =>
      rw [List.mem_cons, not_or] at free
      rw [List.cons_append, cstr_chars_cons, if_neg (Ne.symm free.1), inductionHypothesis free.2]

theorem strchr_cstr (c : Char) : ∀ buf, strchr c (cstr buf).chars = strchr c buf
  | [] => rfl
  | d :: rest => by
    by_cases nul : d = '\x00'
    · simp [cstr_chars_cons, nul, strchr]
    · simp only [cstr_chars_cons, if_neg nul, strchr, strchr_cstr c rest]

/-- `strchr` on a NUL-free string finds the first occurrence, with everything before it. -/
theorem strchr_eq_some_iff (c : Char) : ∀ {l : List Char} {offset : Nat}, '\x00' ∉ l →
    (strchr c l = some offset ↔ ∃ before after, l = before ++ c :: after ∧ c ∉ before ∧
      before.length = offset)
  | [], _, _ => by simp [strchr]
  | d :: rest, offset, free => by
    rw [List.mem_cons, not_or] at free
    by_cases same : d = c
    · subst same
      simp only [strchr, if_neg (Ne.symm free.1), if_true, Option.some.injEq]
      constructor
      · rintro rfl
        exact ⟨[], rest, rfl, List.not_mem_nil _, rfl⟩
      · rintro ⟨before, after, split, absent, rfl⟩
        cases before with
        | nil => rfl
        | cons b bs =>
          rw [List.cons_append] at split
          exact absurd ((List.cons.inj split).1 ▸ List.mem_cons_self _ _) absent
    · simp only [strchr, if_neg (Ne.symm free.1), if_neg same]
      constructor
      · intro found
        obtain ⟨inner, hinner, rfl⟩ := Option.map_eq_some'.mp found
        obtain ⟨before, after, rfl, absent, rfl⟩ := (strchr_eq_some_iff c free.2).mp hinner
        exact ⟨d :: before, after, rfl, by simp [absent, Ne.symm same], rfl⟩
      · rintro ⟨before, after, split, absent, rfl⟩
        cases before with
        | nil => exact absurd (List.cons.inj split).1 same
        | cons b bs =>
          rw [List.cons_append] at split
          obtain ⟨rfl, rfl⟩ := List.cons.inj split
          rw [List.mem_cons, not_or] at absent
          rw [(strchr_eq_some_iff c free.2).mpr ⟨bs, after, rfl, absent.2, rfl⟩]
          rfl

theorem strchr_eq_none_iff (c : Char) : ∀ {l : List Char}, '\x00' ∉ l →
    (strchr c l = none ↔ c ∉ l)
  | [], _ => by simp [strchr]
  | d :: rest, free => by
    rw [List.mem_cons, not_or] at free
    by_cases same : d = c
    · subst same
      simp [strchr, Ne.symm free.1]
    · simp [strchr, same, Ne.symm free.1, strchr_eq_none_iff c free.2, Ne.symm same]

/-! ## `strsep` and the pieces between delimiters -/

/-- Where `strsep` leaves the line pointer is strictly shorter than the line. -/
theorem strsep_rest_length (delim : Char) : ∀ {l rest : List Char},
    (strsep delim l).2 = some rest → rest.length < l.length
  | [], _, h => by simp [strsep] at h
  | c :: tail, rest, h => by
    by_cases nul : c = '\x00'
    · simp [strsep, nul] at h
    · by_cases same : c = delim
      · simp only [strsep, if_neg nul, if_pos same, Option.some.injEq] at h
        subst h
        simp
      · simp only [strsep, if_neg nul, if_neg same] at h
        exact Nat.lt_succ_of_lt (strsep_rest_length delim h)

/-- `strsep` stops at the first NUL, so it reads a buffer as the C string it holds. -/
theorem strsep_cstr (delim : Char) (notNul : delim ≠ '\x00') : ∀ buf,
    strsep delim (cstr buf).chars =
      ((strsep delim buf).1, (strsep delim buf).2.map fun rest => (cstr rest).chars)
  | [] => rfl
  | c :: rest => by
    by_cases nul : c = '\x00'
    · simp [cstr_chars_cons, nul, strsep]
    · by_cases same : c = delim
      · simp [cstr_chars_cons, nul, same, strsep, notNul]
      · simp only [cstr_chars_cons, if_neg nul, strsep, if_neg same, strsep_cstr delim notNul rest]

/-- On a NUL-free line, the token `strsep` returns is the first piece between
delimiters, and the pieces of what it leaves are the remaining ones. -/
theorem splitOn_eq_strsep (delim : Char) : ∀ {l : List Char}, '\x00' ∉ l →
    l.splitOn delim = (strsep delim l).1 :: ((strsep delim l).2.map (·.splitOn delim)).getD []
  | [], _ => by simp [strsep, List.splitOn_nil]
  | c :: rest, free => by
    rw [List.mem_cons, not_or] at free
    have tail := splitOn_eq_strsep delim free.2
    simp only [List.splitOn, List.splitOnP_cons] at tail ⊢
    by_cases same : c = delim
    · subst same
      simp [strsep, Ne.symm free.1]
    · simp [strsep, same, Ne.symm free.1, tail]

theorem strsep_rest_nulFree (delim : Char) : ∀ {l rest : List Char}, '\x00' ∉ l →
    (strsep delim l).2 = some rest → '\x00' ∉ rest
  | [], _, _, h => by simp [strsep] at h
  | c :: tail, rest, free, h => by
    rw [List.mem_cons, not_or] at free
    simp only [strsep, if_neg (Ne.symm free.1)] at h
    split_ifs at h
    · cases h; exact free.2
    · exact strsep_rest_nulFree delim free.2 h

/-! ## The whitespace loops -/

/-- Started at offset `endp`, the trailing loop keeps the prefix up to `endp` with its
trailing whitespace removed, provided the first byte is not whitespace. -/
theorem take_trailingEnd {subrcpt : List Char} (first : isspace (subrcpt.getD 0 '\x00') = false) :
    ∀ endp, endp < subrcpt.length →
      subrcpt.take (trailingEnd subrcpt endp + 1) = (subrcpt.take (endp + 1)).rdropWhile isspace
  | 0, within => by
    obtain ⟨c, rest, rfl⟩ := List.exists_cons_of_length_pos within
    simp only [List.getD_cons_zero] at first
    simp [trailingEnd, List.rdropWhile_singleton, first]
  | endp + 1, within => by
    have last : subrcpt.take (endp + 1 + 1) = subrcpt.take (endp + 1) ++ [subrcpt[endp + 1]] := by
      rw [List.take_succ, List.getElem?_eq_getElem within]; rfl
    have byte : subrcpt.getD (endp + 1) '\x00' = subrcpt[endp + 1] := by
      rw [List.getD_eq_getElem?_getD, List.getElem?_eq_getElem within]; rfl
    simp only [trailingEnd, byte, last]
    split_ifs with space
    · rw [List.rdropWhile_concat_pos _ _ _ space, take_trailingEnd first endp (by omega)]
    · rw [List.rdropWhile_concat_neg _ _ _ (by simpa using space), ← last]

theorem stripTrailing_eq (c : Char) (rest : List Char) (notSpace : isspace c = false) :
    stripTrailing (c :: rest) = (c :: rest).rdropWhile isspace := by
  have first : isspace ((c :: rest).getD 0 '\x00') = false := notSpace
  have whole := take_trailingEnd first rest.length (by simp)
  simpa [stripTrailing] using whole

/-- After the leading loop stops at a non-space byte, the trailing loop leaves the
trimmed token. -/
theorem stripTrailing_dropWhile {token : List Char} {c : Char} {rest : List Char}
    (stopped : token.dropWhile isspace = c :: rest) :
    stripTrailing (c :: rest) = trim token ∧ trim token ≠ [] := by
  have notSpace : isspace c = false := by
    simpa [stopped] using List.head_dropWhile_not isspace token (by simp [stopped])
  refine ⟨by rw [stripTrailing_eq c rest notSpace, trim, stopped], ?_⟩
  rw [trim, stopped, Ne, List.rdropWhile_eq_nil_iff]
  exact fun all => by simp [all c (List.mem_cons_self _ _)] at notSpace

theorem trim_eq_nil_of_dropWhile {token : List Char} (blank : token.dropWhile isspace = []) :
    trim token = [] := by
  rw [trim, blank, List.rdropWhile_nil]

end SmtpdTables
