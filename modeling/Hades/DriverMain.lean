import Hades.NewTest
import Hades.SuiteMarker
import Hades.ValidateCommand

/-!
# The Driver

`hades-driver` (`main.cpp`): its first argument is a command, and the others go to the command.
This module adds `find-suite` and `rm` to the commands, and the dispatch; what is printed is
left out.

A removed directory takes everything below it along, in whatever way a path below it is spelt.
A removal that fails has removed some of it. A directory that `init-suite` cannot create leaves
everything as it was, and the other writes of `init-suite` and `find-suite` succeed.
-/

namespace Hades.Runtime

/-! ### Adopting and removing a suite -/

/-- `fs::path(dir) / name`: a separator is put between them if there is none. -/
def pathAppend (dir name : Text) : Text :=
  if dir = [] then name
  else if dir.getLast? = some '/' then dir ++ name
  else inDirectory dir name

/-- The manifest of the suite in a directory that was typed. -/
def typedSuiteToml (cwd dir : Text) : Text :=
  absolutePath cwd (pathAppend dir "suite.toml".toList)

/-- Make an existing suite the current one. -/
def cmdFindSuite (cwd : Text) (args : List Text) (fs : FileSystem) : FileSystem × ℕ :=
  match args with
  | [] => (fs, 2)
  | dir :: _ =>
    if fs (typedSuiteToml cwd dir) = none then (fs, 1)
    else
      match adoptSuite cwd dir fs with
      | none => (fs, 1)
      | some fs => (fs, 0)

/-- What `fs::remove_all` does with what is below a directory: all of it is removed, or the
removal fails and keeps some. -/
structure Removal where
  fails : Bool := false
  keeps : Text → Bool := fun _ => false

/-- The path is below the directory. -/
def IsBelow (root path : Text) : Prop :=
  denotedDirectory root <+: denotedDirectory path ∧ denotedDirectory root ≠ denotedDirectory path

instance (root path : Text) : Decidable (IsBelow root path) :=
  inferInstanceAs (Decidable (_ ∧ _))

/-- Remove a directory. -/
def FileSystem.removeAll (fs : FileSystem) (removal : Removal) (root : Text) : FileSystem :=
  fun path => if IsBelow root path ∧ ¬ (removal.fails ∧ removal.keeps path) then none else fs path

/-- Delete a suite. If it is the current one, no suite is. -/
def cmdRemoveSuite (cwd : Text) (removal : Removal) (args : List Text) (fs : FileSystem) :
    FileSystem × ℕ :=
  match args with
  | [] => (fs, 2)
  | dir :: _ =>
    if fs (typedSuiteToml cwd dir) = none then (fs, 1)
    else
      let fs := fs.removeAll removal (absolutePath cwd dir)
      if removal.fails then (fs, 1)
      else (GenericFormat.verbatim.clearSuiteIfCurrent cwd dir fs, 0)

/-! ### The dispatch -/

/-- A command with its arguments. -/
inductive DriverCommand where
  | printUsage
  | printVersion
  | initSuite (args : List Text)
  | findSuite (args : List Text)
  | removeSuite (args : List Text)
  | newTest (args : List Text)
  | run (args : List Text)
  | validate (args : List Text)
  | unknown

/-- The command that the arguments of the driver name. -/
def DriverCommand.parse : List Text → DriverCommand
  | [] => .printUsage
  | l_command :: l_rest =>
    if l_command = "--help".toList then .printUsage
    else if l_command = "--version".toList then .printVersion
    else if l_command = "init-suite".toList then .initSuite l_rest
    else if l_command = "find-suite".toList then .findSuite l_rest
    else if l_command = "rm".toList then .removeSuite l_rest
    else if l_command = "new-test".toList then .newTest l_rest
    else if l_command = "run".toList then .run l_rest
    else if l_command = "validate".toList then .validate l_rest
    else .unknown

/-- What the file system, CMake and the tests do during one call of the driver. -/
structure Surroundings (T : Type*) where
  createsDirectories : Bool
  removal : Removal
  fates : NewTestFates := {}
  machine : Machine
  steps : ValidateSteps T
  trees : BuildTrees T

/-- One call of the driver. -/
structure DriverCall (T : Type*) where
  args : List Text
  surroundings : Surroundings T

variable {T : Type*}

/-- The command of a call. -/
def DriverCall.command (call : DriverCall T) : DriverCommand :=
  DriverCommand.parse call.args

/-- The answer of a command that starts no program. -/
def withoutProgram (result : FileSystem × ℕ) : FileSystem × CommandRun :=
  (result.1, { value := result.2 })

/-- `main`: the files behind a call, the programs that it starts, and the value returned. -/
def driverMain (codec : DoubleCodec) (cwd : Text) (fs : FileSystem) (call : DriverCall T) :
    FileSystem × CommandRun :=
  match call.command with
  | .printUsage => (fs, { value := 0 })
  | .printVersion => (fs, { value := 0 })
  | .initSuite args =>
    -- the directory is only created for a call with an argument
    if args ≠ [] ∧ !call.surroundings.createsDirectories then (fs, { value := 1 })
    else withoutProgram (cmdInitSuite codec cwd args fs)
  | .findSuite args => withoutProgram (cmdFindSuite cwd args fs)
  | .removeSuite args => withoutProgram (cmdRemoveSuite cwd call.surroundings.removal args fs)
  | .newTest args => withoutProgram (cmdNewTest codec cwd call.surroundings.fates args fs)
  | .run args => (fs, cmdRun codec cwd fs call.surroundings.machine args)
  | .validate args =>
    (fs, { value :=
      (cmdValidate codec cwd fs call.surroundings.steps args call.surroundings.trees).2 })
  | .unknown => (fs, { value := 2 })

end Hades.Runtime
