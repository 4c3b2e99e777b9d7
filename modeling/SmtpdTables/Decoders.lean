import SmtpdTables.Records
import Mathlib.Data.List.Forall2

namespace SmtpdTables

/-!
# The record decoders

Each backend turns a raw value into a record with four decoders, one per
service.  The db(3) file carries verbatim copies of the static decoders, so
each `tableDb*` decoder below is the static one applied to its own arguments;
what differs between the backends is the buffer and length they are handed.

The alias and virtual decoders share their `strsep` loop, `expandLoop`, which
is proved equal to the reference reading of a list: split at every comma, trim
each piece, reject an empty piece, and parse the rest.  The virtual decoder
adds a check on the key and returns 0 rather than -1 when the list does not
decode.  The credentials decoder is characterized by the split of its value
at the first colon, for any buffer that ends, or continues past a NUL, after
the value.
-/

variable {Node Addr : Type}

/-! ## The four decoders -/

/-- `table_static_credentials`: a `user:password` value, split at its first colon.
After `*p++ = '\0'` the username is the bytes before the colon, which `strchr`
has already scanned for a NUL. -/
def tableStaticCredentials (E : Env Node Addr) (_key : CString) (line : List Char) (len : Nat) :
    Decoded Node Addr :=
  if len < 3 then ⟨-1, none⟩
  else if E.maxLineSize ≤ len then ⟨-1, none⟩
  else
    match strchr ':' line with
    | none => ⟨-1, none⟩
    | some p =>
      if p = 0 ∨ p = len - 1 then ⟨-1, none⟩
      else
        let username := line.take p
        let password := (cstr (line.drop (p + 1))).chars
        if E.usernameSize ≤ username.length then ⟨-1, some .null⟩
        else if E.passwordSize ≤ password.length then ⟨-1, some .null⟩
        else ⟨1, some (.to (.credentials ⟨username, password⟩))⟩

/-- The body of the `strsep` loop for one `subrcpt`: skip leading whitespace,
reject an empty token, cut trailing whitespace, and parse what is left. -/
def subrcptNode (aliasParse : List Char → Option Node) (subrcpt : List Char) : Option Node :=
  match subrcpt.dropWhile isspace with
  | [] => none
  | c :: rest => aliasParse (stripTrailing (c :: rest))

/-- A line pointer measured for the loop: `NULL` is below every buffer. -/
def lineMeasure : Option (List Char) → Nat
  | none => 0
  | some line => line.length + 1

theorem lineMeasure_strsep (delim : Char) (buf : List Char) :
    lineMeasure (strsep delim buf).2 < lineMeasure (some buf) := by
  cases rest : (strsep delim buf).2 with
  | none => simp [lineMeasure]
  | some tail => simpa [lineMeasure] using strsep_rest_length delim rest

/-- `while ((subrcpt = strsep(&line, ",")) != NULL)` of the alias and virtual
decoders, carrying the nodes given to `expand_insert` and `nbnodes`; `none` is
the `goto error` exit. -/
def expandLoop (aliasParse : List Char → Option Node) (line : Option (List Char))
    (expand : List Node) (nbnodes : Nat) : Option (List Node × Nat) :=
  match line with
  | none => some (expand, nbnodes)
  | some buf =>
    match subrcptNode aliasParse (strsep ',' buf).1 with
    | none => none
    | some xn => expandLoop aliasParse (strsep ',' buf).2 (expand ++ [xn]) (nbnodes + 1)
termination_by lineMeasure line
decreasing_by
  simp_wf
  exact lineMeasure_strsep _ _

/-- `table_static_alias`: a comma-separated list of recipients. -/
def tableStaticAlias (E : Env Node Addr) (_key : CString) (line : List Char) (_len : Nat) :
    Decoded Node Addr :=
  match expandLoop E.aliasParse (some line) [] 0 with
  | some (expand, nbnodes) => ⟨1, some (.to (.alias ⟨nbnodes, expand⟩))⟩
  | none => ⟨-1, some .null⟩

/-- `table_static_virtual`: a domain key, one without `@`, succeeds with no record;
a user key is decoded as an alias list, and a list that fails returns 0. -/
def tableStaticVirtual (E : Env Node Addr) (key : CString) (line : List Char) (_len : Nat) :
    Decoded Node Addr :=
  if strchr '@' key.chars = none then ⟨1, some .null⟩
  else
    match expandLoop E.aliasParse (some line) [] 0 with
    | some (expand, nbnodes) => ⟨1, some (.to (.virtual ⟨nbnodes, expand⟩))⟩
    | none => ⟨0, some .null⟩

/-- `table_static_netaddr`: the whole value given to `text_to_netaddr`. -/
def tableStaticNetaddr (E : Env Node Addr) (_key : CString) (line : List Char) (_len : Nat) :
    Decoded Node Addr :=
  match E.textToNetaddr (cstr line).chars with
  | some netaddr => ⟨1, some (.to (.netaddr ⟨netaddr⟩))⟩
  | none => ⟨0, some .null⟩

/-- `table_db_credentials`, a copy of `table_static_credentials`. -/
def tableDbCredentials (E : Env Node Addr) (key : CString) (line : List Char) (len : Nat) :
    Decoded Node Addr :=
  tableStaticCredentials E key line len

/-- `table_db_alias`, a copy of `table_static_alias`. -/
def tableDbAlias (E : Env Node Addr) (key : CString) (line : List Char) (len : Nat) :
    Decoded Node Addr :=
  tableStaticAlias E key line len

/-- `table_db_virtual`, a copy of `table_static_virtual`. -/
def tableDbVirtual (E : Env Node Addr) (key : CString) (line : List Char) (len : Nat) :
    Decoded Node Addr :=
  tableStaticVirtual E key line len

/-- `table_db_netaddr`, a copy of `table_static_netaddr`. -/
def tableDbNetaddr (E : Env Node Addr) (key : CString) (line : List Char) (len : Nat) :
    Decoded Node Addr :=
  tableStaticNetaddr E key line len

/-! ## The expansion loop against its reference -/

/-- One piece of a list as the spec reads it: trimmed, rejected when empty,
otherwise parsed. -/
def pieceNode (aliasParse : List Char → Option Node) (piece : List Char) : Option Node :=
  if trim piece = [] then none else aliasParse (trim piece)

/-- The pieces a line pointer still holds; `NULL` holds none. -/
def linePieces : Option (List Char) → List (List Char)
  | none => []
  | some line => line.splitOn ','

/-- The reference reading of an alias list: the nodes of all pieces between
commas, in order, provided every piece is accepted. -/
def expansionReference (aliasParse : List Char → Option Node) (s : List Char) :
    Option (List Node) :=
  (s.splitOn ',').mapM (pieceNode aliasParse)

/-- The alias decoder as the spec states it: the count is the number of pieces. -/
def aliasReference (E : Env Node Addr) (s : List Char) : Decoded Node Addr :=
  match expansionReference E.aliasParse s with
  | some nodes => ⟨1, some (.to (.alias ⟨(s.splitOn ',').length, nodes⟩))⟩
  | none => ⟨-1, some .null⟩

/-- The virtual decoder as the spec states it: the alias reading for a key with
`@`, and success without a record for any other key. -/
def virtualReference (E : Env Node Addr) (key : CString) (s : List Char) : Decoded Node Addr :=
  if '@' ∈ key.chars then
    match expansionReference E.aliasParse s with
    | some nodes => ⟨1, some (.to (.virtual ⟨(s.splitOn ',').length, nodes⟩))⟩
    | none => ⟨0, some .null⟩
  else ⟨1, some .null⟩

theorem subrcptNode_eq_pieceNode (aliasParse : List Char → Option Node) (subrcpt : List Char) :
    subrcptNode aliasParse subrcpt = pieceNode aliasParse subrcpt := by
  unfold subrcptNode pieceNode
  split
  · next blank => simp [trim_eq_nil_of_dropWhile blank]
  · next c rest stopped =>
    obtain ⟨trimmed, nonempty⟩ := stripTrailing_dropWhile stopped
    simp [trimmed, nonempty]

theorem linePieces_strsep {line : List Char} (free : '\x00' ∉ line) :
    linePieces (some line) = (strsep ',' line).1 :: linePieces (strsep ',' line).2 := by
  rw [linePieces, splitOn_eq_strsep ',' free]
  cases (strsep ',' line).2 <;> rfl

/-- The loop gives `expand_insert` the parse of every trimmed piece, in order,
and stops at the first piece that is empty or does not parse. -/
theorem expandLoop_eq (aliasParse : List Char → Option Node) (line : Option (List Char))
    (expand : List Node) (nbnodes : Nat) (free : ∀ buf, line = some buf → '\x00' ∉ buf) :
    expandLoop aliasParse line expand nbnodes =
      ((linePieces line).mapM (pieceNode aliasParse)).map
        fun nodes => (expand ++ nodes, nbnodes + (linePieces line).length) := by
  induction line, expand, nbnodes using expandLoop.induct aliasParse with
  | case1 expand nbnodes => simp [expandLoop, linePieces, -List.mapM]
  | case2 expand nbnodes line fails =>
    rw [expandLoop.eq_def, linePieces_strsep (free line rfl)]
    rw [subrcptNode_eq_pieceNode] at fails
    simp [-List.mapM, subrcptNode_eq_pieceNode, fails]
  | case3 expand nbnodes line xn parsed inductionHypothesis =>
    have rest := inductionHypothesis fun buf h => strsep_rest_nulFree ',' (free line rfl) h
    rw [subrcptNode_eq_pieceNode] at parsed
    rw [expandLoop.eq_def, linePieces_strsep (free line rfl)]
    simp only [subrcptNode_eq_pieceNode, parsed, rest, List.mapM_cons, Option.map_bind,
      List.length_cons]
    cases (linePieces (strsep ',' line).2).mapM (pieceNode aliasParse) <;>
      simp [Nat.add_assoc, Nat.add_comm 1]

/-- On any buffer the loop reads only the C string it holds. -/
theorem expandLoop_cstr (aliasParse : List Char → Option Node) (line : Option (List Char))
    (expand : List Node) (nbnodes : Nat) :
    expandLoop aliasParse line expand nbnodes =
      expandLoop aliasParse (line.map fun buf => (cstr buf).chars) expand nbnodes := by
  induction line, expand, nbnodes using expandLoop.induct aliasParse with
  | case1 expand nbnodes => rfl
  | case2 expand nbnodes line fails =>
    rw [expandLoop.eq_def, expandLoop.eq_def]
    simp [strsep_cstr ',' (by decide), fails]
  | case3 expand nbnodes line xn parsed inductionHypothesis =>
    rw [expandLoop.eq_def, expandLoop.eq_def]
    simp [strsep_cstr ',' (by decide), parsed, inductionHypothesis]

theorem mapM_eq_some_iff_forall₂ {α β : Type} (f : α → Option β) :
    ∀ (inputs : List α) (outputs : List β),
      inputs.mapM f = some outputs ↔ List.Forall₂ (fun input output => f input = some output)
        inputs outputs
  | [], outputs => by simp [-List.mapM, List.forall₂_nil_left_iff, eq_comm]
  | input :: inputs, outputs => by
    rw [List.forall₂_cons_left_iff]
    cases image : f input with
    | none => simp [-List.mapM, image]
    | some output =>
      simp only [List.mapM_cons, image, Option.bind_eq_bind', Option.some_bind, Option.bind_eq_some,
        Option.pure_def, Option.some.injEq, ← mapM_eq_some_iff_forall₂ f inputs, exists_eq_left']
      exact ⟨fun ⟨rest, mapped, joined⟩ => ⟨output, rest, rfl, mapped, joined.symm⟩,
        fun ⟨_, rest, same, mapped, joined⟩ => ⟨rest, mapped, same ▸ joined.symm⟩⟩

theorem pieceNode_eq_some_iff (aliasParse : List Char → Option Node) (piece : List Char)
    (node : Node) :
    pieceNode aliasParse piece = some node ↔ trim piece ≠ [] ∧ aliasParse (trim piece) = some node := by
  unfold pieceNode
  split_ifs with blank <;> simp [blank]

/-- The reference accepts a list exactly when every trimmed piece is non-empty and
parses, and then its nodes are the parses of the pieces, in order. -/
theorem expansionReference_eq_some_iff (aliasParse : List Char → Option Node) (s : List Char)
    (nodes : List Node) :
    expansionReference aliasParse s = some nodes ↔
      List.Forall₂ (fun piece node => trim piece ≠ [] ∧ aliasParse (trim piece) = some node)
        (s.splitOn ',') nodes := by
  simp only [expansionReference, mapM_eq_some_iff_forall₂, pieceNode_eq_some_iff]

/-- The loop run on a whole NUL-free value. -/
theorem expandLoop_value (aliasParse : List Char → Option Node) (s : CString) :
    expandLoop aliasParse (some s.chars) [] 0 =
      (expansionReference aliasParse s.chars).map fun nodes => (nodes, (s.chars.splitOn ',').length) := by
  rw [expandLoop_eq aliasParse _ [] 0 (by rintro _ ⟨⟩; exact s.nulFree)]
  simp [linePieces, expansionReference, -List.mapM]

/-- The alias and virtual decoders of both backends read a value exactly as the
reference does: every piece between commas trimmed, non-empty and parsed, the
nodes inserted in order, and their count the number of pieces.  A virtual key
without `@` gives success with no record whatever the value. -/
theorem expansion_decoders_eq_reference (E : Env Node Addr) (key s : CString) (len : Nat) :
    tableStaticAlias E key s.chars len = aliasReference E s.chars ∧
    tableDbAlias E key s.chars len = aliasReference E s.chars ∧
    tableStaticVirtual E key s.chars len = virtualReference E key s.chars ∧
    tableDbVirtual E key s.chars len = virtualReference E key s.chars := by
  have aliasEq : tableStaticAlias E key s.chars len = aliasReference E s.chars := by
    rw [tableStaticAlias, expandLoop_value, aliasReference]
    cases expansionReference E.aliasParse s.chars <;> rfl
  have virtualEq : tableStaticVirtual E key s.chars len = virtualReference E key s.chars := by
    rw [tableStaticVirtual, expandLoop_value, virtualReference]
    by_cases at_sign : '@' ∈ key.chars
    · rw [if_neg (by rwa [strchr_eq_none_iff '@' key.nulFree, not_not]), if_pos at_sign]
      cases expansionReference E.aliasParse s.chars <;> rfl
    · rw [if_pos ((strchr_eq_none_iff '@' key.nulFree).mpr at_sign), if_neg at_sign]
  exact ⟨aliasEq, aliasEq, virtualEq, virtualEq⟩

/-! ## Credentials split at the first colon -/

/-- A tail that ends the C string before it: nothing, or a NUL. -/
def EndsString (tail : List Char) : Prop :=
  tail = [] ∨ ∃ junk, tail = '\x00' :: junk

theorem endsString_nil : EndsString [] := Or.inl rfl

/-- The spec's reading of a credential value: split at its first colon into a
non-empty username and password that fit their fields, the whole value shorter
than `MAX_LINE_SIZE`. -/
def CredentialsSplit (E : Env Node Addr) (value username password : List Char) : Prop :=
  value = username ++ ':' :: password ∧ ':' ∉ username ∧ username ≠ [] ∧ password ≠ [] ∧
    value.length < E.maxLineSize ∧ username.length < E.usernameSize ∧
    password.length < E.passwordSize

theorem cstr_append_endsString {text tail : List Char} (free : '\x00' ∉ text)
    (ends : EndsString tail) : (cstr (text ++ tail)).chars = text := by
  rcases ends with rfl | ⟨junk, rfl⟩
  · simpa using cstr_chars_of_nulFree free
  · exact congrArg CString.chars (cstr_append_nul ⟨text, free⟩ junk)

theorem exists_first_colon {value : List Char} (free : '\x00' ∉ value) (present : ':' ∈ value) :
    ∃ username password, value = username ++ ':' :: password ∧ ':' ∉ username := by
  obtain ⟨offset, found⟩ :=
    Option.ne_none_iff_exists'.mp (mt (strchr_eq_none_iff ':' free).mp (not_not.mpr present))
  obtain ⟨username, password, split, first, -⟩ := (strchr_eq_some_iff ':' free).mp found
  exact ⟨username, password, split, first⟩

theorem first_colon_unique {username password username' password' : List Char}
    (free : '\x00' ∉ username ++ ':' :: password) (first : ':' ∉ username)
    (first' : ':' ∉ username')
    (same : username ++ ':' :: password = username' ++ ':' :: password') :
    username = username' ∧ password = password' := by
  have lengths : username.length = username'.length := by
    have found := (strchr_eq_some_iff ':' free).mpr ⟨username, password, rfl, first, rfl⟩
    have found' := (strchr_eq_some_iff ':' free).mpr ⟨username', password', same, first', rfl⟩
    exact Option.some.inj (found.symm.trans found')
  obtain ⟨rfl, rest⟩ := List.append_inj same lengths
  exact ⟨rfl, (List.cons.inj rest).2⟩

/-- The decoder on a value with a colon, followed by the end of its string, for
any `len` it is handed. -/
theorem tableStaticCredentials_colon (E : Env Node Addr) (key : CString)
    {username password tail : List Char} (ends : EndsString tail)
    (free : '\x00' ∉ username ++ ':' :: password) (first : ':' ∉ username) (len : Nat) :
    tableStaticCredentials E key (username ++ ':' :: password ++ tail) len =
      if len < 3 ∨ E.maxLineSize ≤ len ∨ username = [] ∨ username.length = len - 1 then ⟨-1, none⟩
      else if E.usernameSize ≤ username.length then ⟨-1, some .null⟩
      else if E.passwordSize ≤ password.length then ⟨-1, some .null⟩
      else ⟨1, some (.to (.credentials ⟨username, password⟩))⟩ := by
  have found : strchr ':' (username ++ ':' :: password ++ tail) = some username.length := by
    rw [← strchr_cstr, cstr_append_endsString free ends, strchr_eq_some_iff ':' free]
    exact ⟨username, password, rfl, first, rfl⟩
  have before : (username ++ ':' :: password ++ tail).take username.length = username := by simp
  have after : (cstr ((username ++ ':' :: password ++ tail).drop (username.length + 1))).chars =
      password := by
    have freePassword : '\x00' ∉ password := fun nul => free (by simp [nul])
    simpa using cstr_append_endsString freePassword ends
  simp only [tableStaticCredentials, found, before, after]
  by_cases early : len < 3 ∨ E.maxLineSize ≤ len ∨ username = [] ∨ username.length = len - 1
  · rw [if_pos early]
    rcases early with early | early | early | early <;> simp [early]
  · simp only [not_or, ← List.length_eq_zero] at early
    simp [early, ← List.length_eq_zero]

theorem tableStaticCredentials_no_colon (E : Env Node Addr) (key : CString) {value tail : List Char}
    (ends : EndsString tail) (free : '\x00' ∉ value) (absent : ':' ∉ value) (len : Nat) :
    tableStaticCredentials E key (value ++ tail) len = ⟨-1, none⟩ := by
  have missing : strchr ':' (value ++ tail) = none := by
    rw [← strchr_cstr, cstr_append_endsString free ends, strchr_eq_none_iff ':' free]
    exact absent
  simp only [tableStaticCredentials, missing]
  split_ifs <;> rfl

/-- The credential decoder's answer on a value with a colon, read through its status:
1 exactly when none of its refusals applies, which is when the value splits as a
reading `Split` of its first colon allows, with the record of the split stored; -1
otherwise. -/
theorem credentials_value {answer : Decoded Node Addr} {early usernameFull passwordFull : Prop}
    [Decidable early] [Decidable usernameFull] [Decidable passwordFull]
    {Split : List Char → List Char → Prop} {username password : List Char}
    (shape : answer = if early then ⟨-1, none⟩ else if usernameFull then ⟨-1, some .null⟩
      else if passwordFull then ⟨-1, some .null⟩
      else ⟨1, some (.to (.credentials ⟨username, password⟩))⟩)
    (fits : Split username password ↔ ¬early ∧ ¬usernameFull ∧ ¬passwordFull)
    (unique : ∀ username' password', Split username' password' →
      username' = username ∧ password' = password) :
    (answer.ret = 1 ↔ ∃ username password, Split username password) ∧
      (∀ username password, Split username password →
        answer.stored = some (.to (.credentials ⟨username, password⟩))) ∧
      (answer.ret = 1 ∨ answer.ret = -1) := by
  have splits : (∃ username password, Split username password) ↔ Split username password :=
    ⟨fun ⟨username', password', split⟩ => by
      obtain ⟨rfl, rfl⟩ := unique username' password' split
      exact split, fun split => ⟨_, _, split⟩⟩
  rw [splits, fits]
  subst shape
  by_cases accepted : ¬early ∧ ¬usernameFull ∧ ¬passwordFull
  · obtain ⟨early, usernameFits, passwordFits⟩ := accepted
    simp only [if_neg early, if_neg usernameFits, if_neg passwordFits]
    refine ⟨iff_of_true trivial ⟨early, usernameFits, passwordFits⟩,
      fun username' password' split => ?_, .inl trivial⟩
    obtain ⟨rfl, rfl⟩ := unique username' password' split
    rfl
  · have refused : (if early then ⟨-1, none⟩ else if usernameFull then ⟨-1, some .null⟩
        else if passwordFull then ⟨-1, some .null⟩
        else (⟨1, some (.to (.credentials ⟨username, password⟩))⟩ : Decoded Node Addr)).ret = -1 := by
      split_ifs <;> first | rfl | exact absurd ⟨‹_›, ‹_›, ‹_›⟩ accepted
    refine ⟨iff_of_false (by rw [refused]; decide) accepted, fun username' password' split => ?_,
      .inr refused⟩
    obtain ⟨rfl, rfl⟩ := unique username' password' split
    exact absurd (fits.mp split) accepted

/-- The static credential decoder on a whole value: it succeeds exactly on the
values the spec describes, with the record of their split, and otherwise
returns -1. -/
theorem tableStaticCredentials_value (E : Env Node Addr) (key s : CString) :
    ((tableStaticCredentials E key s.chars s.chars.length).ret = 1 ↔
        ∃ username password, CredentialsSplit E s.chars username password) ∧
      (∀ username password, CredentialsSplit E s.chars username password →
        (tableStaticCredentials E key s.chars s.chars.length).stored =
          some (.to (.credentials ⟨username, password⟩))) ∧
      ((tableStaticCredentials E key s.chars s.chars.length).ret = 1 ∨
        (tableStaticCredentials E key s.chars s.chars.length).ret = -1) := by
  by_cases present : ':' ∈ s.chars
  · obtain ⟨username, password, split, first⟩ := exists_first_colon s.nulFree present
    have free := split ▸ s.nulFree
    have decoded := tableStaticCredentials_colon E key endsString_nil free first
      s.chars.length
    rw [List.append_nil, ← split] at decoded
    refine credentials_value decoded ?_ fun _ _ split' =>
      first_colon_unique (split'.1 ▸ s.nulFree) split'.2.1 first (split'.1.symm.trans split)
    simp only [CredentialsSplit, split, first, List.length_append, List.length_cons,
      ← List.length_pos, ← List.length_eq_zero, not_false_eq_true, true_and]
    omega
  · have decoded := tableStaticCredentials_no_colon E key endsString_nil s.nulFree
      present s.chars.length
    rw [List.append_nil] at decoded
    have noSplit : ∀ username password, ¬CredentialsSplit E s.chars username password :=
      fun username password split => present (by rw [split.1]; simp)
    simp [decoded, noSplit]

/-- What the db credential decoder accepts: a stored value split at its first colon
into a non-empty username and a password, possibly empty, that fit their fields, the
value with its NUL shorter than `MAX_LINE_SIZE`. -/
def DbCredentialsSplit (E : Env Node Addr) (value username password : List Char) : Prop :=
  value = username ++ ':' :: password ∧ ':' ∉ username ∧ username ≠ [] ∧
    value.length + 1 < E.maxLineSize ∧ username.length < E.usernameSize ∧
    password.length < E.passwordSize

/-- The db credential decoder on a stored value and its NUL, with `len = dbv.size`:
it succeeds exactly on the values of `DbCredentialsSplit`, an empty password
included, with the record of their split, and otherwise returns -1. -/
theorem tableDbCredentials_value (E : Env Node Addr) (key s : CString) :
    ((tableDbCredentials E key (s.chars ++ ['\x00']) (s.chars.length + 1)).ret = 1 ↔
        ∃ username password, DbCredentialsSplit E s.chars username password) ∧
      (∀ username password, DbCredentialsSplit E s.chars username password →
        (tableDbCredentials E key (s.chars ++ ['\x00']) (s.chars.length + 1)).stored =
          some (.to (.credentials ⟨username, password⟩))) ∧
      ((tableDbCredentials E key (s.chars ++ ['\x00']) (s.chars.length + 1)).ret = 1 ∨
        (tableDbCredentials E key (s.chars ++ ['\x00']) (s.chars.length + 1)).ret = -1) := by
  have terminated : EndsString ['\x00'] := Or.inr ⟨[], rfl⟩
  by_cases present : ':' ∈ s.chars
  · obtain ⟨username, password, split, first⟩ := exists_first_colon s.nulFree present
    have free := split ▸ s.nulFree
    have decoded := tableStaticCredentials_colon E key terminated free first
      (s.chars.length + 1)
    rw [← split, ← tableDbCredentials] at decoded
    refine credentials_value decoded ?_ fun _ _ split' =>
      first_colon_unique (split'.1 ▸ s.nulFree) split'.2.1 first (split'.1.symm.trans split)
    simp only [DbCredentialsSplit, split, first, List.length_append, List.length_cons,
      ← List.length_pos, ← List.length_eq_zero, not_false_eq_true, true_and]
    omega
  · have noSplit : ∀ username password, ¬DbCredentialsSplit E s.chars username password :=
      fun username password split => present (by rw [split.1]; simp)
    rw [tableDbCredentials, tableStaticCredentials_no_colon E key terminated s.nulFree present]
    simp [noSplit]

/-! ## What a decoder can hand back -/

/-- Every buffer is the C string it holds followed by a tail that ends it. -/
theorem cstr_split : ∀ line : List Char, ∃ tail, EndsString tail ∧ line = (cstr line).chars ++ tail
  | [] => ⟨[], endsString_nil, rfl⟩
  | c :: rest => by
    by_cases nul : c = '\x00'
    · exact ⟨c :: rest, .inr ⟨rest, by rw [nul]⟩, by simp [cstr_chars_cons, nul]⟩
    · obtain ⟨tail, ends, split⟩ := cstr_split rest
      exact ⟨tail, ends, by rw [cstr_chars_cons, if_neg nul, List.cons_append, ← split]⟩

/-- The answers the decoder of a service gives on the buffer `line`, handed the
length `len`, each with its cause, read on the C string the buffer holds.  A
credential value is split at its first colon.  For a virtual list or an address
that does not decode only `NULL` in `*retp` and a status other than 1 are
recorded. -/
inductive DecoderOutcome (E : Env Node Addr) (key : CString) (line : List Char) (len : Nat) :
    TableService → Decoded Node Addr → Prop
  | credentials {username password : List Char} :
      (cstr line).chars = username ++ ':' :: password → ':' ∉ username →
      ¬(len < 3 ∨ E.maxLineSize ≤ len ∨ username = [] ∨ username.length = len - 1) →
      username.length < E.usernameSize → password.length < E.passwordSize →
      DecoderOutcome E key line len .kCredentials
        ⟨1, some (.to (.credentials ⟨username, password⟩))⟩
  | credentialsTooLong {username password : List Char} :
      (cstr line).chars = username ++ ':' :: password → ':' ∉ username →
      ¬(len < 3 ∨ E.maxLineSize ≤ len ∨ username = [] ∨ username.length = len - 1) →
      E.usernameSize ≤ username.length ∨ E.passwordSize ≤ password.length →
      DecoderOutcome E key line len .kCredentials ⟨-1, some .null⟩
  | credentialsRefused :
      len < 3 ∨ E.maxLineSize ≤ len ∨ ':' ∉ (cstr line).chars ∨
        (∃ username password, (cstr line).chars = username ++ ':' :: password ∧
          ':' ∉ username ∧ (username = [] ∨ username.length = len - 1)) →
      DecoderOutcome E key line len .kCredentials ⟨-1, none⟩
  | alias {nodes : List Node} :
      expansionReference E.aliasParse (cstr line).chars = some nodes →
      DecoderOutcome E key line len .kAlias
        ⟨1, some (.to (.alias ⟨((cstr line).chars.splitOn ',').length, nodes⟩))⟩
  | aliasRejected :
      expansionReference E.aliasParse (cstr line).chars = none →
      DecoderOutcome E key line len .kAlias ⟨-1, some .null⟩
  | domain : '@' ∉ key.chars → DecoderOutcome E key line len .kVirtual ⟨1, some .null⟩
  | virtual {nodes : List Node} :
      '@' ∈ key.chars → expansionReference E.aliasParse (cstr line).chars = some nodes →
      DecoderOutcome E key line len .kVirtual
        ⟨1, some (.to (.virtual ⟨((cstr line).chars.splitOn ',').length, nodes⟩))⟩
  | virtualRejected {ret : Int} :
      '@' ∈ key.chars → expansionReference E.aliasParse (cstr line).chars = none → ret ≠ 1 →
      DecoderOutcome E key line len .kVirtual ⟨ret, some .null⟩
  | netaddr {netaddr : Addr} :
      E.textToNetaddr (cstr line).chars = some netaddr →
      DecoderOutcome E key line len .kNetaddr ⟨1, some (.to (.netaddr ⟨netaddr⟩))⟩
  | netaddrRejected {ret : Int} :
      E.textToNetaddr (cstr line).chars = none → ret ≠ 1 →
      DecoderOutcome E key line len .kNetaddr ⟨ret, some .null⟩

/-- Every decoder but the credential one stores through `retp`, whatever the value. -/
theorem DecoderOutcome.stored_isSome {E : Env Node Addr} {key : CString} {line : List Char}
    {len : Nat} {kind : TableService} {decoded : Decoded Node Addr}
    (outcome : DecoderOutcome E key line len kind decoded)
    (notCredentials : kind ≠ .kCredentials) : decoded.stored.isSome := by
  cases outcome <;> first | rfl | exact absurd rfl notCredentials

theorem tableStaticCredentials_outcome (E : Env Node Addr) (key : CString) (line : List Char)
    (len : Nat) :
    DecoderOutcome E key line len .kCredentials (tableStaticCredentials E key line len) := by
  obtain ⟨tail, ends, split⟩ := cstr_split line
  by_cases present : ':' ∈ (cstr line).chars
  · obtain ⟨username, password, text, first⟩ := exists_first_colon (cstr line).nulFree present
    have decoded := tableStaticCredentials_colon E key ends (text ▸ (cstr line).nulFree) first len
    rw [← text, ← split] at decoded
    rw [decoded]
    split_ifs with early usernameFull passwordFull
    · rcases early with short | long | misplaced
      · exact .credentialsRefused (.inl short)
      · exact .credentialsRefused (.inr (.inl long))
      · exact .credentialsRefused (.inr (.inr (.inr ⟨username, password, text, first, misplaced⟩)))
    · exact .credentialsTooLong text first early (.inl usernameFull)
    · exact .credentialsTooLong text first early (.inr passwordFull)
    · exact .credentials text first early (Nat.lt_of_not_le usernameFull)
        (Nat.lt_of_not_le passwordFull)
  · rw [split, tableStaticCredentials_no_colon E key ends (cstr line).nulFree present len]
    exact .credentialsRefused (.inr (.inr (.inl (by rwa [← split]))))

theorem tableStaticAlias_outcome (E : Env Node Addr) (key : CString) (line : List Char)
    (len : Nat) : DecoderOutcome E key line len .kAlias (tableStaticAlias E key line len) := by
  rw [tableStaticAlias, expandLoop_cstr, Option.map_some', expandLoop_value]
  cases parsed : expansionReference E.aliasParse (cstr line).chars with
  | none => exact .aliasRejected parsed
  | some nodes => exact .alias parsed

theorem tableStaticVirtual_outcome (E : Env Node Addr) (key : CString) (line : List Char)
    (len : Nat) : DecoderOutcome E key line len .kVirtual (tableStaticVirtual E key line len) := by
  rw [tableStaticVirtual, expandLoop_cstr, Option.map_some', expandLoop_value]
  split_ifs with domain
  · exact .domain ((strchr_eq_none_iff '@' key.nulFree).mp domain)
  · have user : '@' ∈ key.chars := by rwa [strchr_eq_none_iff '@' key.nulFree, not_not] at domain
    cases parsed : expansionReference E.aliasParse (cstr line).chars with
    | none => exact .virtualRejected user parsed (by decide)
    | some nodes => exact .virtual user parsed

theorem tableStaticNetaddr_outcome (E : Env Node Addr) (key : CString) (line : List Char)
    (len : Nat) :
    DecoderOutcome E key line len .kNetaddr (tableStaticNetaddr E key line len) := by
  unfold tableStaticNetaddr
  split
  · next netaddr parsed => exact .netaddr parsed
  · next parsed => exact .netaddrRejected parsed (by decide)

end SmtpdTables
