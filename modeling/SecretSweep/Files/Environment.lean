import SecretSweep.Files.Path

/-!
The environment of a run: the values of variables and the home directories of users. A tilde at the
start of a path stands for a home directory.
-/

namespace SecretSweep.Files

structure Environment where
  values : List (String × String)
  /-- The home directories of other users by name. -/
  homes : List (String × String)
  deriving Repr

namespace Environment

def get? (e : Environment) (name : String) : Option String := e.values.lookup name

/-- The value of a variable that is set and not empty. -/
def nonempty? (e : Environment) (name : String) : Option String :=
  (e.get? name).filter (!·.isEmpty)

def home (e : Environment) : String := (e.get? "HOME").getD "/"

/-- A path whose leading tilde, alone or with the name of a known user, stands for a home. -/
def expandHome (e : Environment) (path : String) : String :=
  match path.toList with
  | '~' :: rest =>
    let user := rest.takeWhile (· != '/')
    let below := rest.dropWhile (· != '/')
    let home? := if user.isEmpty then some e.home else e.homes.lookup (String.ofList user)
    match home? with
    | none => path
    | some home =>
      let full := Text.stripEnd (· == '/') home.toList ++ below
      String.ofList (if full.isEmpty then ['/'] else full)
  | _ => path

/-- Whether the name of a user behind a tilde holds a null character, which no name does. -/
def nullInUser (path : String) : Bool :=
  match path.toList with
  | '~' :: rest => (rest.takeWhile (· != '/')).contains '\x00'
  | _ => false

/-- The home directory, unless it starts with a tilde itself. -/
def homePath? (e : Environment) : Option Path :=
  let home := e.expandHome "~"
  if home.toList.head? = some '~' then none else some (.ofText home)

end Environment

end SecretSweep.Files
