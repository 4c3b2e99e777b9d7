import SmtpdTables.Strings
import Mathlib.Data.List.Pairwise

namespace SmtpdTables

/-!
# The command parser of smtpctl

`parse` walks a trie of static token tables with the words of the command
line.  At each table, `match_token` tests the current word against every entry
before the `ENDTOKEN` entry and counts the matches; the walk goes on only when
exactly one entry matched, into that entry's next table, and stops at an entry
with no next table.  Words left over, or a table left with no word, make the
command fail, with a complaint on standard error.  Matching entries record their
action, and a matching variable its word, in the result.

A keyword entry matches a word that `strncmp(word, keyword, strlen(word))` finds
equal: any prefix of the keyword, the empty word included.  The empty word
therefore selects the only keyword of a table that has one.

The language the parser accepts is stated as paths through the trie
(`TriePath`), and the ways a command line leaves the trie as `Rejects`, each with
the report `parse` writes for it.  Every command line is one or the other, and
`parse` answers each as stated.  The tables are prefix-free, so every command
typed in full is accepted.

`enum actions` and `enum token_type` are declared in `parser.h`, which is not in
the modelled files; their members are the ones `parser.c` names, with `NONE`
first, so that `if (t->value)` tests for a member other than `NONE`.
-/

/-- `enum actions`: the commands, `NONE` first. -/
inductive Action
  | none
  | schedule
  | scheduleAll
  | monitor
  | shutdown
  | remove
  | showQueue
  | showStats
  | showEnvelope
  | showMessage
  | pauseMda
  | pauseMta
  | pauseSmtp
  | resumeMda
  | resumeMta
  | resumeSmtp
  | logVerbose
  | logBrief
  | updateTable
  deriving DecidableEq, Repr

/-- `enum token_type`. -/
inductive TokenType
  | noToken
  | endToken
  | keyword
  | variable
  deriving DecidableEq, Repr

/-- The static token tables of `parser.c`. -/
inductive TokenTable
  | tLog
  | tMain
  | tPause
  | tRemove
  | tResume
  | tScheduleId
  | tShow
  | tShowEnvelope
  | tShowMessage
  | tUpdate
  | tUpdateTable
  deriving DecidableEq, Repr

/-- `struct token`: the `next` table pointer is `none` for `NULL`. -/
structure Token where
  type : TokenType
  keyword : String
  value : Action
  next : Option TokenTable
  deriving DecidableEq, Repr

/-- `{ENDTOKEN, "", NONE, NULL}`, the last entry of every table. -/
def endToken : Token := ⟨.endToken, "", .none, none⟩

/-- The tables of `parser.c`. -/
def tokens : TokenTable → List Token
  | .tMain =>
    [⟨.keyword, "schedule-id", .none, some .tScheduleId⟩,
     ⟨.keyword, "schedule-all", .scheduleAll, none⟩,
     ⟨.keyword, "show", .none, some .tShow⟩,
     ⟨.keyword, "monitor", .monitor, none⟩,
     ⟨.keyword, "pause", .none, some .tPause⟩,
     ⟨.keyword, "remove", .none, some .tRemove⟩,
     ⟨.keyword, "resume", .none, some .tResume⟩,
     ⟨.keyword, "stop", .shutdown, none⟩,
     ⟨.keyword, "log", .none, some .tLog⟩,
     ⟨.keyword, "update", .none, some .tUpdate⟩,
     endToken]
  | .tRemove => [⟨.variable, "evpid", .remove, none⟩, endToken]
  | .tScheduleId => [⟨.variable, "msgid/evpid", .schedule, none⟩, endToken]
  | .tShow =>
    [⟨.keyword, "queue", .showQueue, none⟩,
     ⟨.keyword, "stats", .showStats, none⟩,
     ⟨.keyword, "envelope", .none, some .tShowEnvelope⟩,
     ⟨.keyword, "message", .showMessage, some .tShowMessage⟩,
     endToken]
  | .tShowEnvelope => [⟨.variable, "evpid", .showEnvelope, none⟩, endToken]
  | .tShowMessage => [⟨.variable, "evpid", .showMessage, none⟩, endToken]
  | .tPause =>
    [⟨.keyword, "mda", .pauseMda, none⟩,
     ⟨.keyword, "mta", .pauseMta, none⟩,
     ⟨.keyword, "smtp", .pauseSmtp, none⟩,
     endToken]
  | .tResume =>
    [⟨.keyword, "mda", .resumeMda, none⟩,
     ⟨.keyword, "mta", .resumeMta, none⟩,
     ⟨.keyword, "smtp", .resumeSmtp, none⟩,
     endToken]
  | .tLog =>
    [⟨.keyword, "verbose", .logVerbose, none⟩,
     ⟨.keyword, "brief", .logBrief, none⟩,
     endToken]
  | .tUpdate => [⟨.keyword, "table", .none, some .tUpdateTable⟩, endToken]
  | .tUpdateTable => [⟨.variable, "name", .updateTable, none⟩, endToken]

/-- `struct parse_result`, with the fields `parse` fills. -/
structure ParseResult where
  action : Action
  data : Option CString
  deriving DecidableEq

/-- `strncmp(s1, s2, n) == 0` on two C strings: their first `n` bytes agree, or both
end together before. -/
def strncmpEq : List Char → List Char → Nat → Bool
  | _, _, 0 => true
  | [], [], _ + 1 => true
  | c :: s1, d :: s2, n + 1 => c == d && strncmpEq s1 s2 n
  | _, _, _ + 1 => false

/-- The test of `match_token` for one entry: a `NOTOKEN` matches a missing or empty
word, a `KEYWORD` a word that `strncmp` finds equal to its first `strlen(word)`
bytes, a `VARIABLE` any non-empty word. -/
def tokenMatches (word : Option CString) (token : Token) : Bool :=
  match token.type, word with
  | .noToken, none => true
  | .noToken, some word => word.chars.isEmpty
  | .keyword, some word => strncmpEq word.chars token.keyword.data word.chars.length
  | .variable, some word => !word.chars.isEmpty
  | _, _ => false

/-- What a matching entry writes into `res`: its action when it has one, and for a
variable the word as well. -/
def recordMatch (word : Option CString) (token : Token) (res : ParseResult) : ParseResult :=
  if token.value = .none then res
  else
    match token.type with
    | .keyword => { res with action := token.value }
    | .variable => ⟨token.value, word⟩
    | _ => res

/-- The body of the `match_token` loop on one entry: the match count, the last
matching entry `t`, and `res`. -/
def matchStep (word : Option CString) (state : Nat × Option Token × ParseResult)
    (token : Token) : Nat × Option Token × ParseResult :=
  if tokenMatches word token then (state.1 + 1, some token, recordMatch word token state.2.2)
  else state

/-- `for (i = 0; table[i].type != ENDTOKEN; i++)` of `match_token`. -/
def matchLoop (word : Option CString) :
    List Token → Nat × Option Token × ParseResult → Nat × Option Token × ParseResult
  | [], state => state
  | token :: rest, state =>
    if token.type = .endToken then state else matchLoop word rest (matchStep word state token)

/-- What `match_token` leaves behind: the entry it returns, `none` for `NULL`, `res`
as its loop left it, and what it wrote to standard error. -/
structure Matched where
  token : Option Token
  res : ParseResult
  stderr : List String

/-- The complaint of `match_token` when it did not count exactly one match. -/
def matchComplaint (word : Option CString) (count : Nat) : List String :=
  match word with
  | none => ["missing argument:\n"]
  | some word =>
    if count > 1 then ["ambiguous argument: " ++ String.mk word.chars ++ "\n"]
    else if count < 1 then ["unknown argument: " ++ String.mk word.chars ++ "\n"]
    else []

/-- `match_token`: the matching entry when exactly one matched, and `res` as the
loop left it. -/
def matchToken (word : Option CString) (table : List Token) (res : ParseResult) : Matched :=
  let final := matchLoop word table (0, none, res)
  if final.1 = 1 then ⟨final.2.1, final.2.2, []⟩
  else ⟨none, final.2.2, matchComplaint word final.1⟩

/-- `show_valid_args`: one line for each entry before `ENDTOKEN`. -/
def showValidArgs : List Token → List String
  | [] => []
  | token :: rest =>
    match token.type with
    | .endToken => []
    | .noToken => "  <cr>\n" :: showValidArgs rest
    | .keyword | .variable => ("  " ++ token.keyword ++ "\n") :: showValidArgs rest

/-- What a call of `parse` leaves behind: what it wrote to standard error, and the
result it returned, `none` for `NULL`. -/
structure ParseOutput where
  stderr : List String
  result : Option ParseResult
  deriving DecidableEq

/-- The exit of `parse` when `match_token` returned `NULL`: after its complaint, the
valid arguments of the table. -/
def noMatch (table : TokenTable) (matched : Matched) : ParseOutput :=
  ⟨matched.stderr ++ "valid commands/args:\n" :: showValidArgs (tokens table), none⟩

/-- The end of `parse` after its loop: with `argc > 0` a word is left, and it is
superfluous. -/
def loopExit (rest : List CString) (res : ParseResult) : ParseOutput :=
  match rest with
  | [] => ⟨[], some res⟩
  | extra :: _ => ⟨["superfluous argument: " ++ String.mk extra.chars ++ "\n"], none⟩

/-- The `while (argc >= 0)` loop of `parse` from a table, on the words left.  With
no word left `argv[0]` is the terminating `NULL`; a match on it leaves `argc` at -1
and ends the loop.  A `NOTOKEN` or an entry with no next table breaks the loop. -/
def parseLoop : TokenTable → List CString → ParseResult → ParseOutput
  | table, [], res =>
    let matched := matchToken none (tokens table) res
    match matched.token with
    | none => noMatch table matched
    | some _ => loopExit [] matched.res
  | table, word :: rest, res =>
    let matched := matchToken (some word) (tokens table) res
    match matched.token with
    | none => noMatch table matched
    | some token =>
      match token.type, token.next with
      | .noToken, _ | _, none => loopExit rest matched.res
      | _, some next => parseLoop next rest matched.res

/-- `parse(argc, argv)` from `t_main`, with `res` cleared by `bzero`. -/
def parse (argv : List CString) : ParseOutput :=
  parseLoop .tMain argv ⟨.none, none⟩

/-! ## The token-trie language -/

/-- The entries `match_token` reads from a table: those before its `ENDTOKEN`. -/
def entries (table : TokenTable) : List Token :=
  (tokens table).takeWhile fun token => token.type ≠ .endToken

/-- The matching rule `match_token` applies to a word of `argv`, on the entries it
reads: a keyword is matched by every prefix of it, the empty word included, and a
variable by every non-empty word. -/
def prefixMatches (word : CString) (token : Token) : Bool :=
  match token.type with
  | .keyword => word.chars.isPrefixOf token.keyword.data
  | .variable => !word.chars.isEmpty
  | _ => false

/-- Paths through the tables for a list of words: each word the only match of its
entry in the current table, each entry but the last leading to the table of the
next, the last entry leading nowhere. -/
inductive TriePath (wordMatches : CString → Token → Bool) :
    TokenTable → List CString → List (Token × CString) → Prop
  | last {table word token} :
      (entries table).filter (wordMatches word) = [token] → token.next = none →
      TriePath wordMatches table [word] [(token, word)]
  | next {table word token next words path} :
      (entries table).filter (wordMatches word) = [token] → token.next = some next →
      TriePath wordMatches next words path →
      TriePath wordMatches table (word :: words) ((token, word) :: path)

/-- How a list of words leaves the trie, as `parse` tells it: no word where a table
needs one, a word that matches several entries or none, or a word after a
complete command. -/
inductive Failure
  | missing (table : TokenTable)
  | ambiguous (table : TokenTable) (word : CString)
  | unknown (table : TokenTable) (word : CString)
  | superfluous (word : CString)

/-- The lines written to standard error for a failure: the reason, and for a word
that selects no single entry, the valid arguments of its table. -/
def Failure.report : Failure → List String
  | .missing table =>
    "missing argument:\n" :: "valid commands/args:\n" :: showValidArgs (tokens table)
  | .ambiguous table word =>
    ("ambiguous argument: " ++ String.mk word.chars ++ "\n") :: "valid commands/args:\n" ::
      showValidArgs (tokens table)
  | .unknown table word =>
    ("unknown argument: " ++ String.mk word.chars ++ "\n") :: "valid commands/args:\n" ::
      showValidArgs (tokens table)
  | .superfluous word => ["superfluous argument: " ++ String.mk word.chars ++ "\n"]

/-- Where a list of words leaves the trie from a table: the words follow entries
that each matches alone, up to a table with no word left, a word that does not
match exactly one entry, or a word after an entry that leads nowhere. -/
inductive Rejects : TokenTable → List CString → Failure → Prop
  | missing {table} : Rejects table [] (.missing table)
  | ambiguous {table word rest} :
      1 < ((entries table).filter (prefixMatches word)).length →
      Rejects table (word :: rest) (.ambiguous table word)
  | unknown {table word rest} :
      (entries table).filter (prefixMatches word) = [] →
      Rejects table (word :: rest) (.unknown table word)
  | superfluous {table word token extra rest} :
      (entries table).filter (prefixMatches word) = [token] → token.next = none →
      Rejects table (word :: extra :: rest) (.superfluous extra)
  | next {table word token next words failure} :
      (entries table).filter (prefixMatches word) = [token] → token.next = some next →
      Rejects next words failure → Rejects table (word :: words) failure

/-- The action read off a path: the value of its last entry whose value is not
`NONE`. -/
def pathAction : List (Token × CString) → Action
  | [] => .none
  | step :: rest => if pathAction rest = .none then step.1.value else pathAction rest

/-- The word read off a path: the one matched by its last variable entry that carries
a value. -/
def pathData : List (Token × CString) → Option CString
  | [] => none
  | step :: rest =>
    (pathData rest).or
      (if step.1.type = .variable ∧ step.1.value ≠ .none then some step.2 else none)

/-- Every entry the parser reads is a keyword or a variable. -/
theorem entries_type (table : TokenTable) :
    ∀ token ∈ entries table, token.type = .keyword ∨ token.type = .variable := by
  cases table <;> decide

/-- Every entry that ends a command carries an action. -/
theorem entries_leaf_value (table : TokenTable) :
    ∀ token ∈ entries table, token.next = none → token.value ≠ .none := by
  cases table <;> decide

/-! ## One table: `match_token` -/

/-- `strncmp` over the first `strlen(word)` bytes of `word` finds it equal to a
string exactly when it is a prefix of that string. -/
theorem strncmpEq_length (word other : List Char) :
    strncmpEq word other word.length = word.isPrefixOf other := by
  induction word generalizing other with
  | nil => cases other <;> rfl
  | cons c word ih => cases other <;> simp [strncmpEq, List.isPrefixOf, ih]

theorem tokenMatches_of_mem {table : TokenTable} {token : Token} (mem : token ∈ entries table)
    (word : CString) : tokenMatches (some word) token = prefixMatches word token := by
  rcases entries_type table token mem with kind | kind <;>
    simp [tokenMatches, prefixMatches, kind, strncmpEq_length]

theorem filter_tokenMatches (table : TokenTable) (word : CString) :
    (entries table).filter (tokenMatches (some word)) =
      (entries table).filter (prefixMatches word) :=
  List.filter_congr fun _ mem => tokenMatches_of_mem mem word

/-- No entry the parser reads matches the `NULL` that ends `argv`. -/
theorem filter_tokenMatches_none (table : TokenTable) :
    (entries table).filter (tokenMatches none) = [] :=
  List.filter_eq_nil_iff.mpr fun token mem => by
    rcases entries_type table token mem with kind | kind <;> simp [tokenMatches, kind]

theorem matchLoop_eq (word : Option CString) (table : List Token)
    (state : Nat × Option Token × ParseResult) :
    matchLoop word table state =
      (table.takeWhile fun token => token.type ≠ .endToken).foldl (matchStep word) state := by
  induction table generalizing state with
  | nil => rfl
  | cons token rest ih =>
    by_cases stop : token.type = .endToken <;> simp [matchLoop, List.takeWhile_cons, stop, ih]

theorem foldl_matchStep_count (word : Option CString) (table : List Token)
    (state : Nat × Option Token × ParseResult) :
    (table.foldl (matchStep word) state).1 = state.1 + table.countP (tokenMatches word) := by
  induction table generalizing state with
  | nil => rfl
  | cons token rest ih =>
    by_cases found : tokenMatches word token <;>
      simp [matchStep, found, ih, List.countP_cons]; omega

/-- The entries a word does not match leave the loop's state as it was. -/
theorem foldl_matchStep_filter (word : Option CString) (table : List Token)
    (state : Nat × Option Token × ParseResult) :
    table.foldl (matchStep word) state =
      (table.filter (tokenMatches word)).foldl (matchStep word) state := by
  induction table generalizing state with
  | nil => rfl
  | cons token rest ih =>
    by_cases found : tokenMatches word token <;> simp [matchStep, found, ih, List.filter_cons]

/-- The first pass of `match_token` over a table's entries: its count, the last
matching entry and `res`, from no match and the `res` given. -/
def matchPass (word : Option CString) (table : TokenTable) (res : ParseResult) :
    Nat × Option Token × ParseResult :=
  (entries table).foldl (matchStep word) (0, none, res)

theorem matchToken_tokens (word : Option CString) (table : TokenTable) (res : ParseResult) :
    matchToken word (tokens table) res =
      if (matchPass word table res).1 = 1 then
        ⟨(matchPass word table res).2.1, (matchPass word table res).2.2, []⟩
      else ⟨none, (matchPass word table res).2.2, matchComplaint word (matchPass word table res).1⟩ := by
  simp only [matchToken, matchLoop_eq]
  rfl

/-- `match_token` answers with the entry a word matches when it is the only one, and
`res` as that entry records into it, and writes nothing. -/
theorem matchToken_eq_some {word : Option CString} {table : TokenTable} {token : Token}
    (unique : (entries table).filter (tokenMatches word) = [token]) (res : ParseResult) :
    matchToken word (tokens table) res = ⟨some token, recordMatch word token res, []⟩ := by
  have found : tokenMatches word token :=
    (List.mem_filter.mp (unique ▸ List.mem_singleton_self token)).2
  rw [matchToken_tokens, matchPass, foldl_matchStep_filter, unique]
  simp [matchStep, found]

/-- With no single matching entry, `match_token` answers `NULL` and complains about
the number of entries the word matched. -/
theorem matchToken_eq_none {word : Option CString} {table : TokenTable}
    (notUnique : ∀ token, (entries table).filter (tokenMatches word) ≠ [token])
    (res : ParseResult) :
    matchToken word (tokens table) res =
      ⟨none, (matchPass word table res).2.2,
        matchComplaint word ((entries table).filter (tokenMatches word)).length⟩ := by
  have count : (matchPass word table res).1 = ((entries table).filter (tokenMatches word)).length := by
    rw [matchPass, foldl_matchStep_count, List.countP_eq_length_filter, Nat.zero_add]
  have notOne : (matchPass word table res).1 ≠ 1 := by
    rw [count, Ne, List.length_eq_one]
    exact fun ⟨token, same⟩ => notUnique token same
  rw [matchToken_tokens, if_neg notOne, count]

/-! ## The whole command line: `parse` -/

theorem mem_entries_of_unique {table : TokenTable} {wordMatches : Token → Bool} {token : Token}
    (unique : (entries table).filter wordMatches = [token]) : token ∈ entries table :=
  (List.mem_filter.mp (unique ▸ List.mem_singleton_self token)).1

/-- A word that one entry alone matches is consumed by that entry: the parse ends
there when the entry leads nowhere, and goes on in its next table otherwise. -/
theorem parseLoop_cons_unique {table : TokenTable} {word : CString} {token : Token}
    (unique : (entries table).filter (prefixMatches word) = [token]) (rest : List CString)
    (res : ParseResult) :
    parseLoop table (word :: rest) res =
      match token.next with
      | none => loopExit rest (recordMatch (some word) token res)
      | some next => parseLoop next rest (recordMatch (some word) token res) := by
  have kind := entries_type table token (mem_entries_of_unique unique)
  rw [← filter_tokenMatches] at unique
  simp only [parseLoop, matchToken_eq_some unique]
  obtain ⟨type, keyword, value, _ | next⟩ := token <;>
    rcases kind with kind | kind <;> subst kind <;> rfl

/-- A word that no entry, or more than one, matches makes the parse fail: the
complaint of `match_token`, then the valid arguments of the table. -/
theorem parseLoop_cons_not_unique {table : TokenTable} {word : CString}
    (notUnique : ∀ token, (entries table).filter (prefixMatches word) ≠ [token])
    (rest : List CString) (res : ParseResult) :
    parseLoop table (word :: rest) res =
      ⟨matchComplaint (some word) ((entries table).filter (prefixMatches word)).length ++
        "valid commands/args:\n" :: showValidArgs (tokens table), none⟩ := by
  rw [← filter_tokenMatches] at notUnique ⊢
  simp only [parseLoop, matchToken_eq_none notUnique]
  rfl

/-- The `NULL` after the last word never ends a command: a table left to match it
makes the parse fail with a missing argument. -/
theorem parseLoop_nil (table : TokenTable) (res : ParseResult) :
    parseLoop table [] res =
      ⟨"missing argument:\n" :: "valid commands/args:\n" :: showValidArgs (tokens table), none⟩ := by
  have notUnique : ∀ token, (entries table).filter (tokenMatches none) ≠ [token] := fun token => by
    rw [filter_tokenMatches_none]
    exact (List.cons_ne_nil token []).symm
  simp only [parseLoop, matchToken_eq_none notUnique]
  rfl

/-- Every list of words from a table either spells a path of the trie or leaves it
in one of the ways `Rejects` lists. -/
theorem triePath_or_rejects (table : TokenTable) (argv : List CString) :
    (∃ path, TriePath prefixMatches table argv path) ∨ ∃ failure, Rejects table argv failure := by
  induction argv generalizing table with
  | nil => exact .inr ⟨_, .missing⟩
  | cons word rest ih =>
    match found : (entries table).filter (prefixMatches word) with
    | [] => exact .inr ⟨_, .unknown found⟩
    | _ :: _ :: _ => exact .inr ⟨_, .ambiguous (by simp [found])⟩
    | [token] =>
      match link : token.next, rest with
      | none, [] => exact .inl ⟨_, .last found link⟩
      | none, _ :: _ => exact .inr ⟨_, .superfluous found link⟩
      | some next, rest =>
        rcases ih next with ⟨path, trie⟩ | ⟨failure, rejects⟩
        · exact .inl ⟨_, .next found link trie⟩
        · exact .inr ⟨_, .next found link rejects⟩

/-- A path of the trie is accepted, with nothing written to standard error, and
`res` holding what the entries of the path record into it, one after the other. -/
theorem TriePath.parseLoop {table : TokenTable} {argv : List CString}
    {path : List (Token × CString)} (trie : TriePath prefixMatches table argv path)
    (res : ParseResult) :
    parseLoop table argv res =
      ⟨[], some (path.foldl (fun res step => recordMatch (some step.2) step.1 res) res)⟩ := by
  induction trie generalizing res with
  | last unique leaf => simp [parseLoop_cons_unique unique, leaf, loopExit]
  | next unique link _ ih => simp [parseLoop_cons_unique unique, link, ih]

/-- A list of words that leaves the trie is refused, with the report of how it
leaves it on standard error. -/
theorem Rejects.parseLoop {table : TokenTable} {argv : List CString} {failure : Failure}
    (rejects : Rejects table argv failure) (res : ParseResult) :
    SmtpdTables.parseLoop table argv res = ⟨failure.report, none⟩ := by
  induction rejects generalizing res with
  | missing => exact parseLoop_nil _ res
  | ambiguous several =>
    rw [parseLoop_cons_not_unique (fun _ single => by simp [single] at several)]
    simp [matchComplaint, several, Failure.report]
  | unknown none_ =>
    rw [parseLoop_cons_not_unique (fun _ single => by simp [single] at none_)]
    simp [matchComplaint, none_, Failure.report]
  | superfluous unique leaf => simp [parseLoop_cons_unique unique, leaf, loopExit, Failure.report]
  | next unique link _ ih => simp [parseLoop_cons_unique unique, link, ih]

/-- Every entry of a path is a keyword or a variable. -/
theorem TriePath.kinds {wordMatches : CString → Token → Bool} {table : TokenTable}
    {argv : List CString} {path : List (Token × CString)}
    (trie : TriePath wordMatches table argv path) :
    ∀ step ∈ path, step.1.type = .keyword ∨ step.1.type = .variable := by
  induction trie with
  | last unique _ =>
    simpa using entries_type _ _ (mem_entries_of_unique unique)
  | next unique _ _ ih =>
    intro step mem
    rcases List.mem_cons.mp mem with rfl | later
    · exact entries_type _ _ (mem_entries_of_unique unique)
    · exact ih step later

/-- A path ends with an entry that carries an action, so its action is never
`NONE`. -/
theorem TriePath.pathAction_ne_none {wordMatches : CString → Token → Bool} {table : TokenTable}
    {argv : List CString} {path : List (Token × CString)}
    (trie : TriePath wordMatches table argv path) : pathAction path ≠ .none := by
  induction trie with
  | last unique leaf =>
    simpa [pathAction] using entries_leaf_value _ _ (mem_entries_of_unique unique) leaf
  | next _ _ _ ih => simp [pathAction, ih]

/-- What the entries of a path record into `res`, one after the other: the action of
`pathAction` when it is not `NONE`, and the word of `pathData` when there is one. -/
theorem foldl_recordMatch {path : List (Token × CString)}
    (kinds : ∀ step ∈ path, step.1.type = .keyword ∨ step.1.type = .variable)
    (res : ParseResult) :
    path.foldl (fun res step => recordMatch (some step.2) step.1 res) res =
      ⟨if pathAction path = .none then res.action else pathAction path,
        (pathData path).or res.data⟩ := by
  induction path generalizing res with
  | nil => simp [pathAction, pathData]
  | cons step rest ih =>
    rw [List.foldl_cons, ih fun step mem => kinds step (List.mem_cons_of_mem _ mem)]
    rcases kinds step (List.mem_cons_self _ _) with kind | kind <;>
      by_cases valued : step.1.value = .none <;>
      by_cases later : pathAction rest = .none <;>
      cases data : pathData rest <;>
      simp [recordMatch, pathAction, pathData, kind, valued, later, data]

/-- A path of the trie from `t_main` leaves the result read off the path. -/
theorem TriePath.parse {argv : List CString} {path : List (Token × CString)}
    (trie : TriePath prefixMatches .tMain argv path) :
    SmtpdTables.parse argv = ⟨[], some ⟨pathAction path, pathData path⟩⟩ := by
  rw [SmtpdTables.parse, trie.parseLoop, foldl_recordMatch trie.kinds]
  simp [trie.pathAction_ne_none]

/-- `parse` accepts exactly the words that spell a path of the token trie, where a
keyword is matched by any prefix of it, the empty word included; on success `res`
holds the last action of the path, never `NONE`, and the word of its last variable
entry that carries one. -/
theorem parse_eq_some_iff (argv : List CString) (res : ParseResult) :
    (parse argv).result = some res ↔
      ∃ path, TriePath prefixMatches .tMain argv path ∧
        res = ⟨pathAction path, pathData path⟩ ∧ res.action ≠ .none := by
  constructor
  · intro accepted
    rcases triePath_or_rejects .tMain argv with ⟨path, trie⟩ | ⟨failure, rejects⟩
    · rw [trie.parse] at accepted
      cases accepted
      exact ⟨path, trie, rfl, trie.pathAction_ne_none⟩
    · simp [parse, rejects.parseLoop] at accepted
  · rintro ⟨path, trie, rfl, -⟩
    rw [trie.parse]

example : parse [⟨"sh".data, by decide⟩, ⟨"q".data, by decide⟩] =
    ⟨[], some ⟨.showQueue, none⟩⟩ := by
  decide

/-- What `parse` does with any command line: it accepts a path of the trie, writing
nothing, or refuses a line that leaves the trie, writing the reason and, for a word
that selects no single entry, the valid arguments of its table. -/
theorem parse_output (argv : List CString) :
    (∃ path, TriePath prefixMatches .tMain argv path ∧
        parse argv = ⟨[], some ⟨pathAction path, pathData path⟩⟩) ∨
      ∃ failure, Rejects .tMain argv failure ∧ parse argv = ⟨failure.report, none⟩ := by
  rcases triePath_or_rejects .tMain argv with ⟨path, trie⟩ | ⟨failure, rejects⟩
  · exact .inl ⟨path, trie, trie.parse⟩
  · exact .inr ⟨failure, rejects, rejects.parseLoop _⟩

example : parse [⟨"pause".data, by decide⟩, ⟨"m".data, by decide⟩] =
    ⟨["ambiguous argument: m\n", "valid commands/args:\n", "  mda\n", "  mta\n", "  smtp\n"],
      none⟩ := by
  decide

/-! ## Commands typed in full -/

/-- A command of the trie: entries from a table, each but the last leading to the
table of the next, the last leading nowhere. -/
inductive Command : TokenTable → List Token → Prop
  | last {table token} : token ∈ entries table → token.next = none → Command table [token]
  | next {table token next tokens} :
      token ∈ entries table → token.next = some next → Command next tokens →
      Command table (token :: tokens)

/-- A word that spells an entry in full: a keyword's own text, or any non-empty word
for a variable. -/
def Spells (token : Token) (word : CString) : Prop :=
  (token.type = .keyword ∧ word.chars = token.keyword.data) ∨
    (token.type = .variable ∧ word.chars ≠ [])

/-- The tables are prefix-free: the entries of a table are keywords none of which is a
prefix of another, or a single variable. -/
theorem entries_prefix_free (table : TokenTable) :
    (entries table).Pairwise fun token other =>
      token.type = .keyword ∧ other.type = .keyword ∧
        ¬token.keyword.data.isPrefixOf other.keyword.data ∧
        ¬other.keyword.data.isPrefixOf token.keyword.data := by
  cases table <;> decide

theorem filter_eq_singleton {α : Type} {p : α → Bool} {a : α} :
    ∀ {l : List α}, l.Nodup → a ∈ l → p a → (∀ b ∈ l, p b → b = a) → l.filter p = [a]
  | [], _, mem, _, _ => absurd mem (List.not_mem_nil a)
  | x :: l, nodup, mem, matched, only => by
    rw [List.nodup_cons] at nodup
    by_cases same : x = a
    · subst same
      rw [List.filter_cons_of_pos matched, List.filter_eq_nil_iff.mpr fun b inL pb =>
        nodup.1 (only b (List.mem_cons_of_mem _ inL) pb ▸ inL)]
    · have skipped : ¬p x := fun px => same (only x (List.mem_cons_self x l) px)
      rw [List.filter_cons_of_neg skipped]
      exact filter_eq_singleton nodup.2 ((List.mem_cons.mp mem).resolve_left (Ne.symm same))
        matched fun b inL => only b (List.mem_cons_of_mem _ inL)

/-- A word that spells an entry in full matches that entry and no other. -/
theorem filter_prefixMatches_spells {table : TokenTable} {token : Token} {word : CString}
    (mem : token ∈ entries table) (spells : Spells token word) :
    (entries table).filter (prefixMatches word) = [token] := by
  have prefixFree := entries_prefix_free table
  have nodup : (entries table).Nodup := prefixFree.imp fun {entry _} apart same => by
    subst same
    exact apart.2.2.1 (by simp)
  refine filter_eq_singleton nodup mem ?_ fun other otherMem matched => ?_
  · rcases spells with ⟨kind, chars⟩ | ⟨kind, filled⟩
    · simp [prefixMatches, kind, chars, List.isPrefixOf_iff_prefix]
    · simpa [prefixMatches, kind] using filled
  · by_contra different
    obtain ⟨kind, otherKind, notPrefix, -⟩ :=
      prefixFree.forall (fun _ _ ⟨kind, kind', apart, apart'⟩ => ⟨kind', kind, apart', apart⟩)
        mem otherMem fun same => different same.symm
    rcases spells with ⟨-, chars⟩ | ⟨isVariable, -⟩
    · simp only [prefixMatches, otherKind, chars] at matched
      exact notPrefix matched
    · simp [kind] at isVariable

/-- A command typed in full spells a path of the trie. -/
theorem Command.triePath {table : TokenTable} {tokens : List Token} {words : List CString}
    (command : Command table tokens) (spelled : List.Forall₂ Spells tokens words) :
    TriePath prefixMatches table words (tokens.zip words) := by
  induction command generalizing words with
  | last mem leaf =>
    obtain ⟨word, spells, rfl⟩ : ∃ word, Spells _ word ∧ words = [word] := by
      cases spelled with
      | cons spells rest => cases rest; exact ⟨_, spells, rfl⟩
    exact .last (filter_prefixMatches_spells mem spells) leaf
  | next mem link _ ih =>
    cases spelled with
    | cons spells rest => exact .next (filter_prefixMatches_spells mem spells) link (ih rest)

/-- Every command of the trie, typed with each keyword in full and a non-empty word for
each variable, is accepted with the action of its last entry that carries one. -/
theorem parse_command_in_full {tokens : List Token} {words : List CString}
    (command : Command .tMain tokens) (spelled : List.Forall₂ Spells tokens words) :
    parse words = ⟨[], some ⟨pathAction (tokens.zip words), pathData (tokens.zip words)⟩⟩ :=
  (command.triePath spelled).parse

/-- `show queue`, typed in full. -/
theorem parse_command_in_full_show_queue :
    Command .tMain [⟨.keyword, "show", .none, some .tShow⟩, ⟨.keyword, "queue", .showQueue, none⟩] ∧
      List.Forall₂ Spells
        [⟨.keyword, "show", .none, some .tShow⟩, ⟨.keyword, "queue", .showQueue, none⟩]
        [⟨"show".data, by decide⟩, ⟨"queue".data, by decide⟩] ∧
      parse [⟨"show".data, by decide⟩, ⟨"queue".data, by decide⟩] =
        ⟨[], some ⟨.showQueue, none⟩⟩ := by
  have command : Command .tMain
      [⟨.keyword, "show", .none, some .tShow⟩, ⟨.keyword, "queue", .showQueue, none⟩] :=
    .next (by decide) rfl (.last (by decide) rfl)
  have spelled : List.Forall₂ Spells
      [⟨.keyword, "show", .none, some .tShow⟩, ⟨.keyword, "queue", .showQueue, none⟩]
      [⟨"show".data, by decide⟩, ⟨"queue".data, by decide⟩] :=
    .cons (.inl ⟨rfl, rfl⟩) (.cons (.inl ⟨rfl, rfl⟩) .nil)
  exact ⟨command, spelled, parse_command_in_full command spelled⟩

/-- The matching rule read with non-empty keyword prefixes only: a keyword is matched
by a non-empty prefix of it, a variable by a non-empty word. -/
def nonEmptyPrefixMatches (word : CString) (token : Token) : Bool :=
  !word.chars.isEmpty && prefixMatches word token

/-- `smtpctl update "" x`: the empty word is a prefix of `table`, the only keyword of
`t_update`, so `parse` accepts a command that no path of non-empty prefixes spells. -/
theorem parse_empty_word_accepted :
    (parse [⟨"update".data, by decide⟩, ⟨[], by decide⟩, ⟨"x".data, by decide⟩]).result =
        some ⟨.updateTable, some ⟨"x".data, by decide⟩⟩ ∧
      ¬ ∃ path, TriePath nonEmptyPrefixMatches .tMain
        [⟨"update".data, by decide⟩, ⟨[], by decide⟩, ⟨"x".data, by decide⟩] path := by
  refine ⟨by decide, ?_⟩
  rintro ⟨path, trie⟩
  have update : (entries .tMain).filter (nonEmptyPrefixMatches ⟨"update".data, by decide⟩) =
      [⟨.keyword, "update", .none, some .tUpdate⟩] := by decide
  have empty : (entries .tUpdate).filter (nonEmptyPrefixMatches ⟨[], by decide⟩) = [] := by
    decide
  cases trie with
  | next first link rest =>
    obtain rfl := List.singleton_inj.mp (first.symm.trans update)
    cases link
    cases rest with
    | next second _ _ => simp [empty] at second

end SmtpdTables
