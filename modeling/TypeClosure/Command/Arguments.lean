/-!
Command lines. A command has flags, which may stand anywhere and be run together when they are
short, and operands; behind `--` everything is an operand. What is wrong with a command line is
found from left to right, but a value that is missing or empty is found only when the next flag is
taken in, or at the end.
-/

namespace TypeClosure.Command

structure ClosureArguments where
  file : String
  /-- Names to start from. -/
  types : List String := []
  followReexports : Bool := false
  json : Bool := false
  verbose : Bool := false
deriving Repr, DecidableEq

structure NamesArguments where
  patterns : List String
  json : Bool := false
  verbose : Bool := false
deriving Repr, DecidableEq

inductive Task where
  | closure (arguments : ClosureArguments)
  | names (arguments : NamesArguments)
  | init
deriving Repr, DecidableEq

/-- What help is given on. -/
inductive Topic where
  | program
  | closure
  | names
  | init
  | help
deriving Repr, DecidableEq

inductive Request where
  | perform (task : Task)
  | showHelp (topic : Topic)
  | showVersion
  /-- No command is given. -/
  | overview
deriving Repr, DecidableEq

/-- What is wrong with a command line. -/
inductive UsageFault where
  | unknownCommand (word : String)
  | unknownArgument (word : String)
  | missingOperand
  | missingValue (argument : String)
  | repeatedFlag (flag : String)
  | unwantedValue (value flag : String)
deriving Repr, DecidableEq

def UsageFault.message : UsageFault → String
  | .unknownCommand word => "error: unrecognized subcommand '" ++ word ++ "'"
  | .unknownArgument word => "error: unexpected argument '" ++ word ++ "' found"
  | .missingOperand => "error: the following required arguments were not provided:"
  | .missingValue argument =>
      "error: a value is required for '" ++ argument ++ "' but none was supplied"
  | .repeatedFlag flag => "error: the argument '" ++ flag ++ "' cannot be used multiple times"
  | .unwantedValue value flag =>
      "error: unexpected value '" ++ value ++ "' for '" ++ flag ++ "' found; no more were expected"

/-! ### Flags -/

inductive Flag where
  | type
  | followReexports
  | json
  | verbose
  | help
  | version
deriving Repr, DecidableEq

namespace Flag

def long : Flag → String
  | .type => "type"
  | .followReexports => "follow-reexports"
  | .json => "json"
  | .verbose => "verbose"
  | .help => "help"
  | .version => "version"

def short? : Flag → Option Char
  | .type => some 't'
  | .verbose => some 'v'
  | .help => some 'h'
  | .version => some 'V'
  | .followReexports | .json => none

/-- A flag as it is shown. -/
def shown (f : Flag) : String := "--" ++ f.long

end Flag

/-- How a value of `--type` is shown. -/
def typeShown : String := Flag.type.shown ++ " <NAME>"

/-! ### The arguments of a command -/

/-- What a command takes. -/
structure Grammar where
  topic : Topic
  flags : List Flag
  /-- How an operand is shown that must not be empty. -/
  operandShown : Option String := none
  /-- How many operands there may be, if there is a bound. -/
  operandBound : Option Nat

def Grammar.closure : Grammar :=
  ⟨.closure, [.type, .followReexports, .json, .verbose, .help], some "<FILE>", some 1⟩

def Grammar.names : Grammar := ⟨.names, [.json, .verbose, .help], none, none⟩

def Grammar.init : Grammar := ⟨.init, [.help], none, some 0⟩

/-- What has been taken in. -/
structure Taken where
  operands : List String := []
  types : List String := []
  flags : List Flag := []
  /-- Whether `--type` waits for its value. -/
  awaitsType : Bool := false
  /-- Whether only operands follow. -/
  onlyOperands : Bool := false
deriving Repr, DecidableEq

/-- Why taking in a word ends the command line. -/
inductive Stop where
  | fault (fault : UsageFault)
  | help
deriving Repr, DecidableEq

namespace Taken

/-- Checks the values that have been taken in so far. -/
def settle (g : Grammar) (s : Taken) : Except Stop Unit :=
  if s.awaitsType then .error (.fault (.missingValue typeShown))
  else match g.operandShown with
    | some shown => if s.operands.contains "" then .error (.fault (.missingValue shown)) else .ok ()
    | none => .ok ()

/-- Takes in a flag without a value. -/
def addFlag (g : Grammar) (s : Taken) (f : Flag) : Except Stop Taken := do
  s.settle g
  if f = .help then .error .help
  else if s.flags.contains f then .error (.fault (.repeatedFlag f.shown))
  else .ok { s with flags := s.flags ++ [f] }

/-- Takes in `--type`, perhaps with its value. -/
def addType (g : Grammar) (s : Taken) (value : Option String) : Except Stop Taken := do
  s.settle g
  match value with
  | some v => .ok { s with types := s.types ++ [v] }
  | none => .ok { s with awaitsType := true }

def addOperand (g : Grammar) (s : Taken) (word : String) : Except Stop Taken :=
  match g.operandBound with
  | some bound =>
      if bound ≤ s.operands.length then .error (.fault (.unknownArgument word))
      else do
        s.settle g
        .ok { s with operands := s.operands ++ [word] }
  | none => do
      s.settle g
      .ok { s with operands := s.operands ++ [word] }

/-- Takes in a long flag, written behind two hyphens. -/
def addLong (g : Grammar) (s : Taken) (text : List Char) : Except Stop Taken :=
  let name := String.ofList (text.takeWhile (· != '='))
  let value := match text.dropWhile (· != '=') with
    | _ :: v => some (String.ofList v)
    | [] => none
  match g.flags.find? (·.long == name) with
  | none => .error (.fault (.unknownArgument ("--" ++ name)))
  | some .type => s.addType g value
  | some f =>
      match value with
      | some v => .error (.fault (.unwantedValue v f.shown))
      | none => s.addFlag g f

/-- Takes in short flags that are run together; what follows `-t` is its value. -/
def addShort (g : Grammar) (s : Taken) : List Char → Except Stop Taken
  | [] => .ok s
  | c :: rest =>
      match g.flags.find? (·.short? == some c) with
      | none => .error (.fault (.unknownArgument ("-" ++ c.toString)))
      | some .type =>
          match rest with
          | [] => s.addType g none
          | '=' :: value => s.addType g (some (String.ofList value))
          | value => s.addType g (some (String.ofList value))
      | some f => do addShort g (← s.addFlag g f) rest

/-- Takes in a word. -/
def add (g : Grammar) (s : Taken) (word : String) : Except Stop Taken :=
  if s.onlyOperands then s.addOperand g word
  else match word.toList with
    | ['-', '-'] => .ok { s with onlyOperands := true }
    | '-' :: '-' :: text => s.addLong g text
    | '-' :: c :: text => s.addShort g (c :: text)
    | _ =>
        if s.awaitsType then .ok { s with types := s.types ++ [word], awaitsType := false }
        else s.addOperand g word

/-- The task of a command. All but `init` need an operand. -/
def task (g : Grammar) (s : Taken) : Except Stop Task := do
  s.settle g
  match g.topic, s.operands with
  | .closure, file :: _ =>
      .ok (.closure ⟨file, s.types, s.flags.contains .followReexports, s.flags.contains .json,
        s.flags.contains .verbose⟩)
  | .names, pattern :: others =>
      .ok (.names ⟨pattern :: others, s.flags.contains .json, s.flags.contains .verbose⟩)
  | .init, _ => .ok .init
  | _, _ => .error (.fault .missingOperand)

end Taken

/-- Reads the words behind the name of a command. -/
def readTask (g : Grammar) (words : List String) : Except UsageFault Request :=
  match words.foldlM (Taken.add g) {} >>= Taken.task g with
  | .ok task => .ok (.perform task)
  | .error .help => .ok (.showHelp g.topic)
  | .error (.fault fault) => .error fault

/-! ### Whole command lines -/

def topicOf? (word : String) : Option Topic :=
  if word = "closure" then some .closure
  else if word = "names" then some .names
  else if word = "init" then some .init
  else if word = "help" then some .help
  else none

/-- Reads the words behind `help`. -/
def readHelp : List String → Except UsageFault Request
  | [] => .ok (.showHelp .program)
  | word :: rest =>
      match topicOf? word, rest with
      | none, _ => .error (.unknownCommand word)
      | some topic, [] => .ok (.showHelp topic)
      | some _, next :: _ => .error (.unknownCommand next)

/-- Flags in front of any command end the command line. -/
def readGlobalFlag (f : Flag) : Request :=
  match f with
  | .version => .showVersion
  | _ => .showHelp .program

def globalFlags : List Flag := [.help, .version]

/-- Reads a command line. -/
def Request.read : List String → Except UsageFault Request
  | [] => .ok .overview
  | word :: rest =>
      match topicOf? word with
      | some .closure => readTask .closure rest
      | some .names => readTask .names rest
      | some .init => readTask .init rest
      | some _ => readHelp rest
      | none =>
          match word.toList with
          | ['-', '-'] =>
              match rest with
              | [] => .ok .overview
              | next :: _ =>
                  if (topicOf? next).isSome then .error (.unknownArgument next)
                  else .error (.unknownCommand next)
          | '-' :: '-' :: text =>
              let name := String.ofList (text.takeWhile (· != '='))
              match globalFlags.find? (·.long == name) with
              | none => .error (.unknownArgument ("--" ++ name))
              | some f =>
                  match text.dropWhile (· != '=') with
                  | _ :: v => .error (.unwantedValue (String.ofList v) f.shown)
                  | [] => .ok (readGlobalFlag f)
          | '-' :: c :: _ =>
              match globalFlags.find? (·.short? == some c) with
              | none => .error (.unknownArgument ("-" ++ c.toString))
              | some f => .ok (readGlobalFlag f)
          | _ => .error (.unknownCommand word)

end TypeClosure.Command
