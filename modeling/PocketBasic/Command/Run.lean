import PocketBasic.Access.Admin
import PocketBasic.Access.Token
import PocketBasic.Command.Arguments
import PocketBasic.Command.Work
import PocketBasic.Crypto.Base64
import PocketBasic.Crypto.Sha2
import PocketBasic.Library.Builtin
import PocketBasic.Library.Catalog
import PocketBasic.Secure.Basic
import PocketBasic.Server.Basic
import PocketBasic.Settings.File

/-!
# Running the command

The command hashes a password, writes a certificate, runs a program in the terminal or serves
programs. All but the first need the settings and the journal, and the last two the program library.
-/

namespace PocketBasic.Command

variable [Text.Typeface]

/-- What the command leaves to packages. -/
structure Packages where
  passwords : Access.PasswordScheme
  tokens : Access.TokenScheme
  handshake : Web.Handshake
  keyTables : KeyMap.TableReader
  catalogs : Library.Catalog.Reader

/-- What a command finds besides its arguments and files. -/
structure Surroundings where
  packages : Packages
  environment : String → String
  /-- Random bytes for a password hash. -/
  salt : Text.Bytes
  /-- The time in seconds, and as it is written in the journal. -/
  now : Int
  time : String
  dice : Dice

/-- Dice that are thrown by hashing the number of the throw with a seed. A throw has 53 bits. -/
def diceOf (seed : Text.Bytes) : Dice :=
  ⟨fun n =>
    let bits := Crypto.ofBigEndian ((Crypto.sha256 (seed ++ Text.utf8 (toString n))).take 8) / 2048
    bits.toUInt64.toFloat / 9007199254740992, 0⟩

/-- How a command goes on when its preparations are over. -/
inductive Ending where
  | exit (code : Nat)
  /-- Run the calculator in the terminal with so many nanoseconds to a tick. -/
  | console (c : Calculator) (interval : Int)
  /-- Serve at these addresses. -/
  | serve (v : Server) (addresses : List String)

structure Outcome where
  ending : Ending
  output : String
  reports : List String

def hashPassword (x : Surroundings) (password : String) : Work Ending := do
  let hash ← Work.orFail "error: " Access.HashError.message
    (x.packages.passwords.hash password x.salt)
  Work.print (hash ++ "\n")
  return .exit 0

/-! ### Settings and journal -/

def settingsFault : String := "Error initializing configuration: "

def loadSettings (path : String) : Work Settings := do
  match ← Script.place path with
  | .missing =>
    let words := settingsFault ++ "failed to create default config: "
    if path.isEmpty then Work.fail (words ++ SettingsError.message .noFile)
    else
      Work.orFail words FileError.message (← Script.writeFile path Settings.defaults.render)
      return Settings.defaults
  | here =>
    let text ← Work.orFail settingsFault FileError.message (here.read path)
    Work.orFail settingsFault SettingsError.message (Settings.parse text)

def localSettings : String := "settings.local.cfg"

def loadAllSettings (path : String) : Work Settings := do
  let s ← loadSettings path
  match ← Script.place localSettings with
  | .file text => return (s.merge text).1
  | _ => return s

def openJournal (s : Settings) : Work Unit := do
  let words := "Error initializing logger: "
  let path := s.getString "Debug" "log_file" "retrocalc.log"
  Work.orFail words FileError.message (← Script.makeFolders (Text.Path.folderOf path))
  Work.orFail words FileError.message (← Script.appendFile path "")
  modify fun d => { d with journal := Journal.openWith? s }

/-! ### Certificates -/

def writePem (path text : String) : Work Unit := do
  Work.orFail "error: " FileError.message (← Script.makeFolders (Text.Path.folderOf path))
  Work.orFail ("error: writing " ++ path ++ ": ") FileError.message (← Script.writeFile path text)

def subjectContent (subject : Secure.Subject) : String :=
  String.ofList (Crypto.urlAlphabet.encode (Text.utf8
    (" ".intercalate (subject.name :: subject.hosts ++ subject.addresses))))

def writeCertificate (x : Surroundings) (s : Settings) (host : String) : Work Ending := do
  let setup := Secure.Setup.ofSettings s
  let subject ← Work.orFail "error: " Secure.SetupError.message (Secure.subjectFor setup host)
  writePem setup.certificateFile (Secure.Pem.certificate.armor (subjectContent subject))
  writePem setup.keyFile (Secure.Pem.key.armor (subjectContent subject))
  Work.note .info .general x.time
    ("self-signed certificate for " ++ host ++ " written to " ++ setup.certificateFile)
  return .exit 0

/-! ### The program library -/

inductive DatabaseError where
  | unreachable
  | notDatabase
deriving DecidableEq, Repr

def DatabaseError.message : DatabaseError → String
  | .unreachable => "failed to connect to database"
  | .notDatabase => "failed to create programs table: file is not a database (26)"

/-- The file of a database; nothing if it is kept in memory. What follows a question mark are
options. -/
def databaseFile? (path : String) : Option String :=
  let file := match path.toList with
    | [] => []
    | c :: rest => c :: rest.takeWhile (· ≠ '?')
  if file = [] || file = ":memory:".toList then none else some (String.ofList file)

def databaseMark : String := "SQLite format 3"

def isDatabase (text : String) : Bool :=
  text.isEmpty || databaseMark.toList.isPrefixOf text.toList

def openDatabase (path : String) : Script (Except DatabaseError Unit) := do
  match databaseFile? path with
  | none => return .ok ()
  | some file => match ← Script.place file with
    | .file text => return if isDatabase text then .ok () else .error .notDatabase
    | _ => match ← Script.writeFile file "" with
      | .ok () => return .ok ()
      | .error _ => return .error .unreachable

/-- The programs of a catalog file, or the built-in ones if no file is given. -/
def loadCatalog (read : Library.Catalog.Reader) (path : String) :
    Script (Except String (List Library.Draft)) := do
  if path.isEmpty then return .ok Library.builtinPrograms
  else match (← Script.place path).read path with
    | .error e => return .error ((if e.action = "read" then "parse catalog: yaml: input error: "
        else "open catalog: ") ++ e.message)
    | .ok text => match Library.Catalog.parse read text with
      | .ok drafts => return .ok drafts
      | .error e => return .error e.message

/-- What became of the programs of a catalog in the library that they were added to. -/
def seedingEntries (store : Library.Store) (now : Int) (drafts : List Library.Draft) :
    List (Journal.Level × Journal.Area × String) :=
  drafts.map fun d => match store.save d now with
    | .ok (_, item) =>
      (.info, .database, "saved program " ++ item.name ++ " (" ++ toString item.id ++ ")")
    | .error e => (.warn, .programs, "catalog program " ++ d.name ++ " skipped: " ++ e.message)

def libraryFault : String := "program library unavailable: "

def openLibrary (x : Surroundings) (s : Settings) : Work Library.Store := do
  let path := s.getString "Database" "path" "programs.db"
  match ← openDatabase path with
  | .error e => Work.abort .database x.time (libraryFault ++ e.message)
  | .ok () =>
    Work.note .info .database x.time ("program store opened at " ++ path)
    match ← loadCatalog x.packages.catalogs (s.getString "Database" "catalog_file" "") with
    | .error text => Work.abort .database x.time (libraryFault ++ "loading catalog: " ++ text)
    | .ok drafts => match ({} : Library.Store).seed x.now drafts with
      | (_, _, some e) =>
        Work.abort .database x.time (libraryFault ++ "seeding catalog: " ++ e.message)
      | (store, added, none) =>
        Work.noteAll x.time (seedingEntries store x.now drafts)
        if 0 < added then
          Work.note .info .programs x.time ("seeded " ++ toString added ++ " catalog programs")
        Work.note .info .database x.time ("program library " ++ path ++ " ready (" ++
          toString added ++ " catalog programs added)")
        return store

/-! ### Running a program in the terminal -/

/-- The name of a program whose file is not named like a program. -/
def fileProgram : String := "FILE"

/-- The name and the source of the program that an argument stands for: a file, or else a program of
the library. -/
def findProgram (store : Library.Store) (argument : String) : Work (String × String) := do
  match ← Script.place argument with
  | .missing =>
    let item ← Work.orFail "error: " Library.StoreError.message (store.get argument)
    return (item.name, item.source)
  | here =>
    let source ← Work.orFail "error: " FileError.message (here.read argument)
    return ((Library.normalize? (Text.Path.stem argument)).getD fileProgram, source)

/-- The key map of a file. One that is missing stands for the built-in map. -/
def loadKeys (reader : KeyMap.TableReader) (path : String) : Script (Except String KeyMap) := do
  match ← Script.place path with
  | .missing => return .ok .builtin
  | here => match here.read path with
    | .error e => return .error (KeyMapError.message (.unreadable path) ++ ": " ++ e.message)
    | .ok text => match KeyMap.ofDocument reader text with
      | .ok keys => return .ok keys
      | .error e => return .error e.message

def keyMapFile (s : Settings) : String := s.getString "Calculator" "keymap_file" ""

def startConsole (x : Surroundings) (s : Settings) (store : Library.Store) (argument : String) :
    Work Ending := do
  let (name, source) ← findProgram store argument
  let keys ← Work.orFail "error: " id (← loadKeys x.packages.keyTables (keyMapFile s))
  let fresh := Calculator.new keys (s.getInt "Server" "steps_per_tick" 1) x.dice
  match fresh.load name source with
  | .error fault =>
    Work.note .info .calculator x.time ("program " ++ name ++ " rejected: " ++ fault.message)
    Work.fail ("error: " ++ fault.message)
  | .ok c =>
    Work.note .info .tui x.time ("running " ++ name ++ " in the terminal")
    return .console c (s.getDuration "Server" "tick_interval" (50 * Duration.millisecond))

/-! ### Serving -/

def pemFault? (setup : Secure.Setup) : Script (Option String) := do
  match ← Script.readFile setup.certificateFile, ← Script.readFile setup.keyFile with
  | .error e, _ => return some e.message
  | _, .error e => return some e.message
  | .ok certificate, .ok key =>
    if Secure.Pem.ofText? certificate ≠ some .certificate then
      return some "tls: failed to find any PEM data in certificate input"
    else if Secure.Pem.ofText? key ≠ some .key then
      return some "tls: failed to find any PEM data in key input"
    else return none

/-- Checks a setup and loads what it needs. -/
def openFront (setup : Secure.Setup) : Script (Except String Secure.Front) := do
  match setup.lack? with
  | some e => return .error e.servingMessage
  | none =>
    if !setup.enabled then return .ok ⟨setup⟩
    else if setup.letsEncrypt then
      if setup.cacheFolder.isEmpty then return .error (Secure.SetupError.message (.cache ""))
      else match ← Script.makeFolders (Text.Path.ofText setup.cacheFolder) with
        | .ok () => return .ok ⟨setup⟩
        | .error e => return .error ("creating certificate cache: " ++ e.message)
    else match ← pemFault? setup with
      | none => return .ok ⟨setup⟩
      | some text =>
        let error : Secure.SetupError := .certificate setup.certificateFile
        return .error (error.message ++ ": " ++ text)

def maxPort : Nat := 65535

/-- A text is the number of a port that can be listened on. Nothing stands for any port. -/
def isPort (s : String) : Bool :=
  let number (ds : List Char) : Nat := ds.foldl (fun n d => n * 10 + (d.toNat - '0'.toNat)) 0
  match s.toList with
  | '-' :: ds => ds.all Char.isDigit && number ds = 0
  | '+' :: ds => ds.all Char.isDigit && number ds ≤ maxPort
  | ds => ds.all Char.isDigit && number ds ≤ maxPort

/-- The entries about a setup that is about to be served on some ports. -/
def servingEntries (front : Secure.Front) (ports : List String) :
    List (Journal.Level × Journal.Area × String) :=
  (if !front.isEnabled then []
    else if front.setup.letsEncrypt then
      [(.info, .general, "Let's Encrypt enabled for " ++ front.setup.domain)]
    else [(.info, .general, "TLS enabled with certificate " ++ front.setup.certificateFile)]) ++
  (["HTTP", "HTTPS"].zip ports).map fun (kind, port) =>
    (.info, .general, kind ++ " server listening on :" ++ port)

def serveFault : String := "server failed: "

def startServer (x : Surroundings) (s : Settings) (store : Library.Store) : Work Ending := do
  let keys ← loadKeys x.packages.keyTables (keyMapFile s)
  match keys with
  | .ok _ => pure ()
  | .error text =>
    Work.note .warn .session x.time ("key map not loaded, using defaults: " ++ text)
  match ← openFront (.ofSettings s) with
  | .error text => Work.abort .general x.time (serveFault ++ text)
  | .ok front =>
    let ports := s.getString "Server" "port" "8080" ::
      if front.isEnabled then [front.setup.port] else []
    Work.noteAll x.time (servingEntries front ports)
    if ports.all isPort then
      let v : Server :=
        { settings := s
          signer := ⟨x.packages.tokens, Access.secretOf s (x.environment "JWT_SECRET_KEY")⟩
          admin := ⟨Access.adminHashOf s (x.environment "ADMIN_PASSWORD_HASH"), x.packages.passwords⟩
          handshake := x.packages.handshake
          store := store
          sessions := .ofSettings s (keys.toOption.getD .builtin) x.dice }
      return .serve v (ports.map (":" ++ ·))
    else
      Work.note .error .general x.time "server stopped: listen"
      Work.abort .general x.time (serveFault ++ "listen")

/-! ### The whole command -/

def work (x : Surroundings) (a : Arguments) : Work Ending := do
  if !a.hashPassword.isEmpty then hashPassword x a.hashPassword
  else
    let s ← loadAllSettings a.config
    openJournal s
    Work.note .info .config x.time ("configuration loaded from " ++ a.config)
    if !a.selfSigned.isEmpty then writeCertificate x s a.selfSigned
    else
      let store ← openLibrary x s
      if a.tui.isEmpty then startServer x s store else startConsole x s store a.tui

/-- Runs the command with its arguments. The journal is written when all else is done. -/
def run (x : Surroundings) (arguments : List String) : Script Outcome := do
  match Arguments.parse arguments with
  | .error e => return ⟨.exit e.code, "", e.lines⟩
  | .ok a =>
    let (result, desk) ← (work x a).run.run {}
    match desk.journal with
    | some j => writeJournal j.folder
    | none => pure ()
    return ⟨match result with
      | .ok ending => ending
      | .error code => .exit code, desk.output, desk.reports⟩

end PocketBasic.Command
