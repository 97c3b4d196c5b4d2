import LedgerEntity.Codec.Basic

/-!
# Arguments of the command line

The invocation that a list of arguments spells.

The arguments are read from left to right.  Long options take their value after
an equals sign or from the next argument, which must not look like an option.
The global options may stand before and after the subcommand, once at each
place, and the later place wins.  After `--` every argument stands for itself.
Whatever does not fit this pattern is a usage error.

Building an ID has a positional shard, which takes the place of the global
option of that name: the option is not accepted after the subcommand, and
before it its value is read and then ignored.
-/

namespace LedgerEntity
namespace CommandLine

/--
Why there is nothing to run: arguments that do not fit, or a question about the
program.
-/
inductive Stop where
  | usage
  | version
  | help
  deriving DecidableEq, Repr

/--
An argument by its look: two dashes alone; two dashes and a name, perhaps with an
attached value; one dash and letters, of which the first counts; or anything else, a
lone dash included.
-/
inductive Word where
  | escape
  | long (name : String) (value : Option String)
  | short (letter : Char)
  | plain
  deriving DecidableEq, Repr

/-- How an argument looks. -/
def Word.ofArgument
    (argument : String) :
    Word :=
  match argument.toList with
  | ['-', '-'] => .escape
  | '-' :: '-' :: cs =>
      let name := String.ofList (cs.takeWhile (· != '='))
      match cs.dropWhile (· != '=') with
      | [] => .long name none
      | _ :: value => .long name (some (String.ofList value))
  | '-' :: letter :: _ => .short letter
  | _ => .plain

/--
What a long option does: it stands alone, takes a value, or ends the reading.  A setter
with an absent result refuses the option.
-/
inductive OptionRule (α : Type) where
  | flag (set : α → Option α)
  | value (set : String → α → Option α)
  | stop (reason : Stop)

/--
What is accepted at one place of the command line.  All short options end the reading,
and so does the first plain argument where `plain?` is absent.
-/
structure Grammar (α : Type) where
  option? : String → Option (OptionRule α)
  letter? : Char → Option Stop
  plain? : Option (String → α → Option α)

/-- Go on if an option was accepted. -/
def accept
    {α β : Type} :
    Option α → (α → Except Stop β) → Except Stop β
  | none, _ => .error .usage
  | some a, next => next a

/--
Read what one grammar accepts; the arguments from the first plain one on may be left
over.
-/
def Grammar.read
    {α : Type}
    (grammar : Grammar α) :
    List String → α → Except Stop (α × List String)
  | [], a => .ok (a, [])
  | argument :: rest, a =>
      match Word.ofArgument argument with
      | .escape =>
          match grammar.plain? with
          | none => .error .usage
          | some take =>
              accept (rest.foldlM (fun b s => take s b) a) fun b => .ok (b, [])
      | .plain =>
          match grammar.plain? with
          | none => .ok (a, argument :: rest)
          | some take => accept (take argument a) (grammar.read rest)
      | .short letter => .error ((grammar.letter? letter).getD .usage)
      | .long name attached =>
          match grammar.option? name, attached with
          | some (.stop reason), none => .error reason
          | some (.flag set), none => accept (set a) (grammar.read rest)
          | some (.value set), some v => accept (set v a) (grammar.read rest)
          | some (.value set), none =>
              match rest with
              | [] => .error .usage
              | v :: later =>
                  match Word.ofArgument v with
                  | .plain => accept (set v a) (grammar.read later)
                  | _ => .error .usage
          | _, _ => .error .usage

/-- How results are printed. -/
inductive Format where
  | table
  | json
  deriving DecidableEq, Repr

/-- The format of a name; every name but `json` means the table. -/
def Format.ofName
    (s : String) :
    Format :=
  if s = "json" then
    .json
  else
    .table

/-- The options that are accepted before and after the subcommand. -/
structure GlobalOptions where
  format : Option String := none
  shard : Option Nat := none
  deriving DecidableEq, Repr

namespace GlobalOptions

/-- Take the format, once. -/
def setFormat
    (name : String)
    (o : GlobalOptions) :
    Option GlobalOptions :=
  if o.format.isSome then none else some { o with format := some name }

/-- Take the shard, once; it must be a 64-bit word. -/
def setShard
    (value : String)
    (o : GlobalOptions) :
    Option GlobalOptions :=
  if o.shard.isSome then none
  else (Decimal.readWord? value.toList).map fun n => { o with shard := some n }

/-- The options of two places; the later place wins. -/
def merge
    (earlier later : GlobalOptions) :
    GlobalOptions where
  format := later.format <|> earlier.format
  shard := later.shard <|> earlier.shard

end GlobalOptions

/-- What stands after a subcommand, the global options given there included. -/
structure SubcommandArguments where
  globals : GlobalOptions := {}
  plain : List String := []
  flavor : Option Flavor := none
  parameter : Option String := none
  nullable : Bool := false

namespace SubcommandArguments

/-- Take a global option. -/
def setGlobals
    (a : SubcommandArguments)
    (globals : Option GlobalOptions) :
    Option SubcommandArguments :=
  globals.map fun g => { a with globals := g }

/-- Take a plain argument, if it is admitted after the earlier ones. -/
def addPlain
    (admits : List String → String → Bool)
    (s : String)
    (a : SubcommandArguments) :
    Option SubcommandArguments :=
  if admits a.plain s then some { a with plain := a.plain ++ [s] } else none

/-- Take the flavor, once; it must be known. -/
def setFlavor
    (name : String)
    (a : SubcommandArguments) :
    Option SubcommandArguments :=
  if a.flavor.isSome then none
  else (Flavor.ofName? name).map fun f => { a with flavor := some f }

/-- Take the parameter name, once. -/
def setParameter
    (name : String)
    (a : SubcommandArguments) :
    Option SubcommandArguments :=
  if a.parameter.isSome then none else some { a with parameter := some name }

/-- Take the flag for absent IDs, once. -/
def setNullable
    (a : SubcommandArguments) :
    Option SubcommandArguments :=
  if a.nullable then none else some { a with nullable := true }

end SubcommandArguments

/-- The place before the subcommand. -/
def leadingGrammar : Grammar GlobalOptions where
  option?
    | "format" => some (.value GlobalOptions.setFormat)
    | "shard" => some (.value GlobalOptions.setShard)
    | "version" => some (.stop .version)
    | "help" => some (.stop .help)
    | _ => none
  letter?
    | 'V' => some .version
    | 'h' => some .help
    | _ => none
  plain? := none

/-- The options after any subcommand; the shard is optional among them. -/
def sharedOption?
    (withShard : Bool) :
    String → Option (OptionRule SubcommandArguments)
  | "format" =>
      some (.value fun s a => a.setGlobals (a.globals.setFormat s))
  | "shard" =>
      if withShard then
        some (.value fun s a => a.setGlobals (a.globals.setShard s))
      else
        none
  | "help" => some (.stop .help)
  | _ => none

/-- The place after a subcommand, with the plain arguments that it admits. -/
def subcommandGrammar
    (option? : String → Option (OptionRule SubcommandArguments))
    (admits : List String → String → Bool) :
    Grammar SubcommandArguments where
  option? := option?
  letter?
    | 'h' => some .help
    | _ => none
  plain? := some (SubcommandArguments.addPlain admits)

/-- The options after the subcommand that parses IDs. -/
def parseOption? : String → Option (OptionRule SubcommandArguments)
  | "flavor" => some (.value SubcommandArguments.setFlavor)
  | "parameter" => some (.value SubcommandArguments.setParameter)
  | "nullable" => some (.flag SubcommandArguments.setNullable)
  | name => sharedOption? true name

/-- Any number of plain arguments. -/
def admitAll : List String → String → Bool
  | _, _ => true

/-- No plain argument. -/
def admitNone : List String → String → Bool
  | _, _ => false

/-- Up to three 64-bit words. -/
def admitThreeWords
    (earlier : List String)
    (s : String) :
    Bool :=
  decide (earlier.length < 3) && (Decimal.readWord? s.toList).isSome

/--
What to do: parse IDs, or the absent value if none is given; build an ID from its
fields; split references to contracts; or tell the name and the version.
-/
inductive Command where
  | parse (ids : List String) (options : ParseOptions)
  | build (shard realm num : Nat)
  | contract (values : List String)
  | version
  deriving DecidableEq, Repr

/-- What to do and how; a shard that is given replaces the configured one. -/
structure Invocation where
  format : Format
  shard : Option Nat
  command : Command
  deriving DecidableEq, Repr

/-- The invocation of a command with global options. -/
def invoke
    (globals : GlobalOptions)
    (command : Command) :
    Invocation where
  format := .ofName (globals.format.getD "table")
  shard := globals.shard
  command := command

/-- The subcommands that `help` may be asked about. -/
def subcommands : List String :=
  ["parse", "of", "contract", "version", "help"]

/-- Read what stands after the name of a subcommand. -/
def readSubcommand
    (before : GlobalOptions)
    (name : String)
    (arguments : List String) :
    Except Stop Invocation :=
  match name with
  | "parse" => do
      let (a, _) ← (subcommandGrammar parseOption? admitAll).read arguments {}
      .ok (invoke (before.merge a.globals)
        (.parse a.plain ⟨a.parameter, a.nullable, a.flavor.getD .any⟩))
  | "of" => do
      let (a, _) ←
        (subcommandGrammar (sharedOption? false) admitThreeWords).read arguments {}
      match a.plain.map fun s => Decimal.readWord? s.toList with
      | [some shard, some realm, some num] =>
          .ok (invoke { before.merge a.globals with shard := some shard }
            (.build shard realm num))
      | _ => .error .usage
  | "contract" => do
      let (a, _) ←
        (subcommandGrammar (sharedOption? true) admitAll).read arguments {}
      if a.plain.isEmpty then
        .error .usage
      else
        .ok (invoke (before.merge a.globals) (.contract a.plain))
  | "version" => do
      let (a, _) ←
        (subcommandGrammar (sharedOption? true) admitNone).read arguments {}
      .ok (invoke (before.merge a.globals) .version)
  | "help" =>
      match arguments with
      | [] => .error .help
      | [topic] =>
          .error (if subcommands.contains topic then .help else .usage)
      | _ => .error .usage
  | _ => .error .usage

/-- The invocation that a list of arguments spells. -/
def readArguments
    (arguments : List String) :
    Except Stop Invocation := do
  let (before, rest) ← leadingGrammar.read arguments {}
  match rest with
  | [] => .error .usage
  | name :: later => readSubcommand before name later

end CommandLine
end LedgerEntity
