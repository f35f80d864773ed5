import Mathlib.Data.List.Basic

/-!
# The kill switch

`KillSwitch` is backed by a file: it is active as long as the file exists. A relative path is looked
up from the working directory of the process, so that two switches with different paths can be backed
by different files, or by the same one.
-/

namespace PolyCortex

/-- The names from the root to a file. -/
abbrev Location := List String

/-- `pathlib.Path`. -/
structure Path where
  absolute : Bool
  parts : List String
  deriving DecidableEq, Repr

/-- Follow one part of a path. -/
def Location.enter (directory : Location) (part : String) : Location :=
  if part = "." then directory else if part = ".." then directory.dropLast else directory ++ [part]

/-- The file a process with the working directory `cwd` means by a path. -/
def Path.resolve (cwd : Location) (path : Path) : Location :=
  path.parts.foldl Location.enter (if path.absolute then [] else cwd)

inductive File where
  | text (content : String)
  | unreadable (exc : String)
  deriving DecidableEq, Repr

/-- The files that exist. -/
abbrev Files := Location → Option File

/-- Write a file, or remove it. -/
def Files.set (files : Files) (location : Location) (file : Option File) : Files :=
  fun l => if l = location then file else files l

/-- The characters that `str.strip` takes off. -/
def isSpace (c : Char) : Bool :=
  (9 ≤ c.toNat && c.toNat ≤ 13) || (28 ≤ c.toNat && c.toNat ≤ 32) || c.toNat = 0x85 ||
    c.toNat = 0xa0 || c.toNat = 0x1680 || (0x2000 ≤ c.toNat && c.toNat ≤ 0x200a) ||
    c.toNat = 0x2028 || c.toNat = 0x2029 || c.toNat = 0x202f || c.toNat = 0x205f ||
    c.toNat = 0x3000

def strip (text : String) : String :=
  String.ofList ((text.toList.dropWhile isSpace).reverse.dropWhile isSpace).reverse

structure KillSwitch where
  path : Path
  deriving DecidableEq, Repr

/-- `DEFAULT_KILL_SWITCH_PATH`. -/
def defaultKillSwitchPath : Path := ⟨false, ["data", "KILL_SWITCH"]⟩

namespace KillSwitch

variable {cwd : Location} {files : Files} {ks : KillSwitch}

def location (cwd : Location) (ks : KillSwitch) : Location := ks.path.resolve cwd

/-- `is_active`: whether the switch is engaged, and why. A file that cannot be read counts. -/
def isActive (cwd : Location) (files : Files) (ks : KillSwitch) : Bool × String :=
  match files (ks.location cwd) with
  | none => (false, "")
  | some (.text content) => (true, strip content)
  | some (.unreadable exc) => (true, "unreadable kill switch file (" ++ exc ++ ")")

/-- `activate`. -/
def activate (cwd : Location) (timestamp reason : String) (files : Files) (ks : KillSwitch) :
    Files :=
  files.set (ks.location cwd) (some (.text (timestamp ++ " | " ++ reason ++ "\n")))

lemma isActive_iff : (ks.isActive cwd files).1 = true ↔ (files (ks.location cwd)).isSome = true := by
  rw [isActive]
  rcases files (ks.location cwd) with _ | _ | _ <;> simp

@[simp] lemma isActive_activate (timestamp reason : String) :
    (ks.isActive cwd (ks.activate cwd timestamp reason files)).1 = true := by
  simp [isActive_iff, activate, Files.set]

/-- Switches with the same file are active together. -/
lemma isActive_of_location_eq {ks' : KillSwitch} (h : ks.location cwd = ks'.location cwd) :
    ks.isActive cwd files = ks'.isActive cwd files := by
  rw [isActive, isActive, h]

end KillSwitch
end PolyCortex
