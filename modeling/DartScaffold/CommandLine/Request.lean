import DartScaffold.CommandLine.Word

/-!
What a command line asks for. A spelling that could be several flags is wrong wherever it stands.
Otherwise the words are taken from left to right: the first thing that is wrong, or the first flag
that asks for information, decides. Words that nothing takes are wrong only at the end.
-/

namespace DartScaffold.CommandLine

inductive Command where
  | generate
  | init
  deriving DecidableEq, Repr

def Command.ofName? : String → Option Command
  | "generate" => some .generate
  | "init" => some .init
  | _ => none

/-- What a flag was given as its value. -/
inductive Given where
  | text (text : String)
  /-- Two dashes after an equals sign, which stand for no text at all. -/
  | nothing
  deriving DecidableEq, Repr

/-- The text, or none where there is no text in it. -/
def Given.nonempty? : Given → Option String
  | text "" | nothing => none
  | text s => some s

structure Arguments where
  command : Command := .generate
  root : Given := .text "."
  apps : Option Given := none
  feature : Option Given := none
  page : Option Given := none
  projectName : Option Given := none
  projectFile : Option Given := none
  layers : Option Bool := none
  replace : Option Bool := none
  unitTest : Option Bool := none
  verbosity : Nat := 0
  quiet : Bool := false
  deriving DecidableEq, Repr

inductive Request where
  | run (arguments : Arguments)
  | help
  | version
  | misuse (message : String)
  deriving DecidableEq, Repr

/-- What the words so far came to. -/
structure Reading where
  arguments : Arguments := {}
  /-- The command was given. -/
  hasCommand : Bool := false
  /-- The flag that wants the next word as its value. -/
  waiting : Option Flag := none
  /-- The last word was the command, so a separator after it means nothing. -/
  afterCommand : Bool := false
  /-- The flags that have a rival. -/
  seen : List Flag := []
  /-- Words that nothing takes. -/
  extras : List String := []

/-- An error ends the reading early. -/
abbrev Step := Except Request Reading

namespace Reading

def change (r : Reading) (f : Arguments → Arguments) : Reading :=
  { r with arguments := f r.arguments }

def noValue (flag : Flag) : Request :=
  .misuse s!"argument {flag.long}: expected one argument"

def strayText (flag : Flag) : Request :=
  .misuse s!"argument {flag.long}: ignored explicit argument"

/-- The flag is noted, unless it contradicts one before it. -/
def see (r : Reading) (flag : Flag) : Step :=
  match flag.rival? with
  | none => .ok r
  | some rival =>
    if r.seen.contains rival then
      .error (.misuse s!"argument {flag.long}: not allowed with argument {rival.long}")
    else .ok { r with seen := flag :: r.seen }

/-- A flag that stands for itself. -/
def takeSwitch (r : Reading) (flag : Flag) : Step := do
  let r ← r.see flag
  match flag with
  | .help => throw .help
  | .version => throw .version
  | .api => return r.change fun a => { a with layers := some true }
  | .noApi => return r.change fun a => { a with layers := some false }
  | .replace => return r.change fun a => { a with replace := some true }
  | .noReplace => return r.change fun a => { a with replace := some false }
  | .unitTest => return r.change fun a => { a with unitTest := some true }
  | .noUnitTest => return r.change fun a => { a with unitTest := some false }
  | .verbose => return r.change fun a => { a with verbosity := a.verbosity + 1 }
  | .quiet => return r.change fun a => { a with quiet := true }
  | _ => return r

def takeValue (r : Reading) (flag : Flag) (value : Given) : Reading :=
  match flag with
  | .root => r.change fun a => { a with root := value }
  | .appsName => r.change fun a => { a with apps := some value }
  | .featureName => r.change fun a => { a with feature := some value }
  | .pageName => r.change fun a => { a with page := some value }
  | .projectName => r.change fun a => { a with projectName := some value }
  | .morphemeYaml => r.change fun a => { a with projectFile := some value }
  | _ => r

def takeLong (r : Reading) (flag : Flag) (attached : Option String) : Step :=
  match flag.takesValue, attached with
  | true, some "--" => .ok (r.takeValue flag .nothing)
  | true, some value => .ok (r.takeValue flag (.text value))
  | true, none => .ok { r with waiting := some flag }
  | false, some _ => .error (strayText flag)
  | false, none => r.takeSwitch flag

def takeExtra (r : Reading) (text : String) : Reading :=
  { r with extras := r.extras ++ [text] }

/-- The flags that letters stand for, the first of them given. A letter that is none is a text
that the flag before it cannot take. -/
def shortFlags (flag : Flag) : List Char → Except Request (List Flag)
  | [] => .ok [flag]
  | letter :: rest =>
    match Flag.ofShort? letter with
    | some next => (flag :: ·) <$> shortFlags next rest
    | none => .error (strayText flag)

/-- Takes a one-letter flag and those written after it, unless one of the letters is wrong. -/
def takeShort (r : Reading) (flag : Flag) : Option String → Step
  | none => r.takeSwitch flag
  | some "" => .error (strayText flag)
  | some letters => do (← shortFlags flag letters.toList).foldlM takeSwitch r

/-- The first plain word is the command. -/
def takePlain (r : Reading) (text : String) : Step :=
  if r.hasCommand then .ok (r.takeExtra text)
  else
    match Command.ofName? text with
    | some command =>
      .ok { r.change fun a => { a with command } with hasCommand := true, afterCommand := true }
    | none => .error (.misuse s!"argument command: invalid choice: {text}")

/-- A separator means something only where a command can follow. -/
def takeSeparator (r : Reading) : Reading :=
  if r.afterCommand || !r.hasCommand then r else r.takeExtra "--"

def ambiguous (text : String) : Request :=
  .misuse s!"ambiguous option: {text}"

def takeFree (r : Reading) (word : Word) : Step :=
  let next := { r with afterCommand := false }
  match word with
  | .value text => next.takePlain text
  | .long flag attached => next.takeLong flag attached
  | .short flag attached => next.takeShort flag attached
  | .separator => .ok { r.takeSeparator with afterCommand := false }
  | .ambiguous text => .error (ambiguous text)
  | .unknown text => .ok (next.takeExtra text)

def takeWord (r : Reading) (word : Word) : Step :=
  match r.waiting, word with
  | some flag, .value text => .ok { r.takeValue flag (.text text) with waiting := none }
  | some flag, _ => .error (noValue flag)
  | none, word => r.takeFree word

end Reading

/-- The first word that could be several flags. -/
def firstAmbiguous? : List Word → Option String
  | [] => none
  | .ambiguous text :: _ => some text
  | _ :: rest => firstAmbiguous? rest

/-- The request that the words of a command line make. -/
def Request.ofTexts (texts : List String) : Request :=
  let words := Word.ofTexts texts
  match firstAmbiguous? words with
  | some text => Reading.ambiguous text
  | none =>
    match words.foldlM Reading.takeWord {} with
    | .error request => request
    | .ok r =>
      match r.waiting with
      | some flag => Reading.noValue flag
      | none =>
        if r.extras.isEmpty then .run r.arguments
        else .misuse ("unrecognized arguments: " ++ " ".intercalate r.extras)

end DartScaffold.CommandLine
