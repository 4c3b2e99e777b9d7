import SmtpdTables.Strings

namespace SmtpdTables

/-!
# Tables, services and decoded records

The data both backends share.  A table is a name, an id, the backend source it
was created from and, for the static backend, its ordered entry list.  A
lookup is asked for one `table_service`; it answers with a status and, through
`retp`, a pointer to one of four freshly allocated records.

Two kinds of thing are declared in `smtpd.h` and the daemon's other files, not
in the files modelled here, and are parameters below: the line-length limit and
the capacities of the credential fields, and the parsers `alias_parse` and
`text_to_netaddr`.  The expansion nodes and network addresses those parsers
build are left abstract as the types `Node` and `Addr`.  The `struct expand`
that `expand_insert` fills is modelled by the list of nodes it received.
-/

/-- `enum table_service`.  `other` is every member of the enum that the lookup
switches have no case for. -/
inductive TableService
  | kAlias
  | kVirtual
  | kCredentials
  | kNetaddr
  | other
  deriving DecidableEq, Repr

/-- `struct table_credentials`. -/
structure TableCredentials where
  username : List Char
  password : List Char
  deriving DecidableEq, Repr

/-- `struct table_alias`: the nodes passed to `expand_insert`, and their count. -/
structure TableAlias (Node : Type) where
  nbnodes : Nat
  expand : List Node
  deriving DecidableEq, Repr

/-- `struct table_virtual`, laid out as `struct table_alias`. -/
structure TableVirtual (Node : Type) where
  nbnodes : Nat
  expand : List Node
  deriving DecidableEq, Repr

/-- `struct table_netaddr`. -/
structure TableNetaddr (Addr : Type) where
  netaddr : Addr
  deriving DecidableEq, Repr

/-- What `*retp` may point at after a lookup: one record of the four kinds. -/
inductive Record (Node Addr : Type)
  | credentials (value : TableCredentials)
  | alias (value : TableAlias Node)
  | virtual (value : TableVirtual Node)
  | netaddr (value : TableNetaddr Addr)
  deriving DecidableEq, Repr

/-- A C pointer: `NULL`, or the address of a value, which the model keeps. -/
inductive Pointer (α : Type)
  | null
  | to (value : α)
  deriving DecidableEq, Repr

/-- How an allocation the code makes ends: with the memory, or with `NULL`. -/
inductive Alloc
  | succeeds
  | fails
  deriving DecidableEq, Repr

/-- What a record decoder hands back to its lookup: the status it returns, and
the pointer it stored through `retp`, or `none` when it left `*retp` as it was. -/
structure Decoded (Node Addr : Type) where
  ret : Int
  stored : Option (Pointer (Record Node Addr))
  deriving DecidableEq, Repr

/-- The declarations the decoders use from outside the modelled files:
`MAX_LINE_SIZE`, the sizes of the two credential fields, and the parsers. -/
structure Env (Node Addr : Type) where
  maxLineSize : Nat
  usernameSize : Nat
  passwordSize : Nat
  aliasParse : List Char → Option Node
  textToNetaddr : List Char → Option Addr

/-- `struct mapel`: one `key value` entry of a static table. -/
structure Mapel where
  meKey : CString
  meVal : CString
  deriving DecidableEq

/-- `struct table`, with the fields the modelled functions read or write. -/
structure Table where
  tName : String
  tId : Nat
  tSrc : String
  tContents : List Mapel
  deriving DecidableEq

/-- The pointer a caller finds in `*retp` after a decoder returned: the one the
decoder stored, or the one that was there before. -/
def Decoded.result {Node Addr : Type} (decoded : Decoded Node Addr)
    (prior : Pointer (Record Node Addr)) : Pointer (Record Node Addr) :=
  decoded.stored.getD prior

@[simp] theorem Decoded.result_none {Node Addr : Type} (ret : Int)
    (prior : Pointer (Record Node Addr)) : (Decoded.mk ret none).result prior = prior := rfl

@[simp] theorem Decoded.result_some {Node Addr : Type} (ret : Int)
    (stored prior : Pointer (Record Node Addr)) :
    (Decoded.mk ret (some stored)).result prior = stored := rfl

/-! ## Sample data for the worked instances -/

/-- Collaborators for the worked instances: lines and credential fields of 2048
bytes, every recipient token its own node, and addresses made of digits, dots and
a `/`. -/
def sampleEnv : Env (List Char) (List Char) where
  maxLineSize := 2048
  usernameSize := 2048
  passwordSize := 2048
  aliasParse := some
  textToNetaddr := fun text =>
    if text ≠ [] ∧ text.all fun c => c.isDigit || c == '.' || c == '/' then some text else none

/-- The key `alice`. -/
def aliceKey : CString := ⟨"alice".data, by decide⟩

/-- The value `alice:s3cret`. -/
def aliceSecret : CString := ⟨"alice:s3cret".data, by decide⟩

/-- A static table whose one entry maps `alice` to `alice:s3cret`. -/
def aliceTable : Table := ⟨"credentials", 1, "static", [⟨aliceKey, aliceSecret⟩]⟩

end SmtpdTables
