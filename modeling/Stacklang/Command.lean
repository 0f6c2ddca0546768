import Stacklang.Bytecode.Listing
import Stacklang.Command.Repl
import Stacklang.Token.Listing

namespace Stacklang.Command

inductive Mode where
  | tokens (listing : TokenListing)
  | tree
  | run (listed : Bool) (emit? : Option String)

inductive Action where
  | usage
  /-- A flag stands at the end that needs a file name behind it. -/
  | missingFile (flag : String)
  | snapshot (path : String)
  | program (path : String) (mode : Mode)
  | wrongExtension (path : String)
  | repl

def usageLines : List String :=
  ["SIMIAN - bytecode compiler and VM for a small dynamic language",
    "",
    "Usage:",
    "  simian                              Start interactive REPL",
    "  simian <file.mk>                    Run a program, print its last value",
    "  simian --tokens [--no-color] [--pretty] <file.mk>",
    "                                      Show tokens only",
    "  simian --ast <file.mk>              Print the parsed program",
    "  simian --bc <file.mk>               Print disassembly, then run",
    "  simian --emit <out> <file.mk>       Compile and write a bytecode snapshot",
    "  simian --load <snapshot>            Run a bytecode snapshot",
    "  simian --help, -h                   Show this help"]

def usageText : String :=
  String.join (usageLines.map (· ++ "\n"))

def valueOf (flag : String) (arguments : List String) : Except Action (Option String) :=
  match arguments.dropWhile (· != flag) with
  | [] => .ok none
  | [_] => .error (.missingFile flag)
  | _ :: value :: _ => .ok (some value)

/-- The first argument that is neither a flag nor the file name of one, where `previous` is the
argument before these. -/
def operand? (previous : String) : List String → Option String
  | [] => none
  | argument :: rest =>
      if argument.startsWith "-" || previous == "--emit" || previous == "--load" then
        operand? argument rest
      else some argument

/-- The part of a file name behind its last dot, if something stands before that dot. -/
def extension? (path : String) : Option String :=
  let parts := (path.splitOn "/").filter fun part => part != "" && part != "."
  match parts.getLast? with
  | none | some ".." => none
  | some name =>
      match (name.splitOn ".").reverse with
      | last :: first :: rest => if first == "" && rest.isEmpty then none else some last
      | _ => none

def modeOf (arguments : List String) (emit? : Option String) : Mode :=
  let has (flag : String) : Bool := arguments.contains flag
  if has "--tokens" then .tokens ⟨!has "--no-color", has "--pretty"⟩
  else if has "--ast" then .tree
  else .run (has "--bc" || has "--bytecode") emit?

def actionOf (arguments : List String) : Except Action Action := do
  let has (flag : String) : Bool := arguments.contains flag
  if has "--help" || has "-h" then return .usage
  let emit? ← valueOf "--emit" arguments
  let load? ← valueOf "--load" arguments
  match load?, operand? "" arguments with
  | some path, _ => return .snapshot path
  | none, some path =>
      if extension? path == some "mk" then return .program path (modeOf arguments emit?)
      else return .wrongExtension path
  | none, none =>
      if arguments.isEmpty || has "--repl" || has "-i" then return .repl else return .usage

def Action.ofArguments (arguments : List String) : Action :=
  match actionOf arguments with
  | .ok action | .error action => action

def Action.path? : Action → Option String
  | snapshot path | program path _ => some path
  | _ => none

structure Report where
  code : Nat
  out : String
  err : String
  write? : Option (String × List UInt8)

def Report.success (out : String) : Report := ⟨0, out, "", none⟩

def Report.failure (out err : String) : Report := ⟨1, out, err, none⟩

def runImage (fuel : Nat) (session : Session) (image : Image) (listing : String) : Report :=
  let (result, session) := session.run fuel image
  let printed := listing ++ session.world.printed
  match result with
  | .ok value => .success (printed ++ value.display ++ "\n")
  | .error error => .failure printed (error.message ++ "\n")

def runMode (fuel : Nat) (source : String) : Mode → Report
  | .tokens listing =>
      match tokenize source with
      | .ok tokens => .success (listing.render tokens)
      | .error error => .failure "" ("Lexer error: " ++ error.message ++ "\n")
  | .tree =>
      match Program.ofSource source with
      | .ok program => .success program.display
      | .error errors => .failure "" ((EvalError.parse errors).message ++ "\n")
  | .run listed emit? =>
      match (Session.new .standard).compile source with
      | (.error error, _) => .failure "" (error.message ++ "\n")
      | (.ok image, session) =>
          let listing := if listed then image.bytecode.listing else ""
          match emit? with
          | some path => ⟨0, listing, "", some (path, image.bytecode.toBytes)⟩
          | none => runImage fuel session image listing

def runSnapshot (fuel : Nat) (bytes : List UInt8) : Report :=
  match (Session.new .standard).load bytes with
  | (.error error, _) => .failure "" (error.message ++ "\n")
  | (.ok image, session) => runImage fuel session image ""

def unreadable (path reason : String) : Report :=
  .failure "" ("Failed to read '" ++ path ++ "': " ++ reason ++ "\n")

def Report.unwritable (report : Report) (path reason : String) : Report :=
  .failure report.out (report.err ++ "Failed to write '" ++ path ++ "': " ++ reason ++ "\n")

/-- Carries an action out, where `content` is what the file that it reads holds, or why it cannot be
read. The dialogue gets its lines from `input`. -/
def Action.perform (fuel : Nat) (content : Except String (List UInt8)) (input : List String) :
    Action → Report
  | usage => .success usageText
  | missingFile flag => .failure "" ("Error: " ++ flag ++ " needs a file argument\n")
  | wrongExtension path => .failure "" ("Error: expected a .mk file, got " ++ path ++ "\n")
  | snapshot path =>
      match content with
      | .error reason => unreadable path reason
      | .ok bytes => runSnapshot fuel bytes
  | program path mode =>
      match content with
      | .error reason => unreadable path reason
      | .ok bytes =>
          match String.fromUTF8? ⟨bytes.toArray⟩ with
          | none => unreadable path "stream did not contain valid UTF-8"
          | some source => runMode fuel source mode
  | repl =>
      let (out, err) := Repl.converse fuel (.new .standard) Repl.banner "" input
      ⟨0, out, err, none⟩

/-- A directory without subdirectories: the contents of files by name. -/
abbrev Directory := List (String × List UInt8)

namespace Directory

def notFound : String := "No such file or directory (os error 2)"

def read (directory : Directory) (name : String) : Except String (List UInt8) :=
  match directory.lookup name with
  | some bytes => .ok bytes
  | none => .error notFound

/-- Writes a file, unless its name is empty or leads into a subdirectory. -/
def write (directory : Directory) (name : String) (bytes : List UInt8) :
    Except String Directory :=
  if name.isEmpty || name.contains '/' then .error notFound
  else .ok ((name, bytes) :: directory.filter (·.1 != name))

end Directory

def run (fuel : Nat) (arguments : List String) (directory : Directory) (input : List String) :
    Report × Directory :=
  let action := Action.ofArguments arguments
  let content := match action.path? with
    | some path => directory.read path
    | none => .ok []
  let report := action.perform fuel content input
  match report.write? with
  | none => (report, directory)
  | some (path, bytes) =>
      match directory.write path bytes with
      | .ok directory => (report, directory)
      | .error reason => (report.unwritable path reason, directory)

end Stacklang.Command
