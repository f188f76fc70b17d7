import Middfs.Lib.Util
import Middfs.Numeral

/-!
# The configuration

`middfs-conf.c`: the environment variables `MIDDFS_*`, and the file that they
are loaded from.  The environment is a map from the names of variables to their
values, and strings are their bytes.  `malloc` says whether `asprintf` gets its
memory, `putenvOk` whether `putenv` does.  What is printed is left out.
-/

set_option autoImplicit false

namespace Middfs

abbrev Env := List UInt8 → Option (List UInt8)

def newline : UInt8 := 10

def hash : UInt8 := 35

def equals : UInt8 := 61

/-! ## Variables -/

/-- `MIDDFS_ENVVAR_FMT`: `"MIDDFS_"` and the name. -/
def confEnvvar (name : List UInt8) : List UInt8 := [77, 73, 68, 68, 70, 83, 95] ++ name

section Malloc
variable (malloc : Nat → Bool)

/-- `conf_envvar`, which is NULL when `asprintf` fails. -/
def confEnvvarAlloc (name : List UInt8) : Option (List UInt8) :=
  if malloc ((confEnvvar name).length + 1) then some (confEnvvar name) else none

def confGet (name : List UInt8) (env : Env) : Option (List UInt8) :=
  match confEnvvarAlloc malloc name with
  | none => none
  | some envvar => env envvar

/-! ## Numbers -/

/-- `strtoull(str, &endptr, 0)` of the C library: the value, and the string that
`endptr` points to.  A number that is too large gives `ULLONG_MAX`; `errno`,
which tells so, is not looked at. -/
def strtoull (str : List UInt8) : UInt64 × List UInt8 :=
  match Numeral.scan str with
  | none => (0, str)
  | some (negative, n, endptr) =>
      if 2 ^ 64 ≤ n then (UInt64.ofNat (2 ^ 64 - 1), endptr)
      else (if negative then -UInt64.ofNat n else UInt64.ofNat n, endptr)

/-- The value returned, and `*errp`. -/
def confGetUll (name : List UInt8) (errp : Int32) (env : Env) : UInt64 × Int32 :=
  match confGet malloc name env with
  | none => (0, 1)
  | some str =>
      let (val, endptr) := strtoull str
      if str = [] ∨ endptr ≠ [] then (0, 1) else (val, errp)

def confGetUint32 (name : List UInt8) (errp : Int32) (env : Env) : UInt32 × Int32 :=
  let (val, errp) := confGetUll malloc name errp env
  (val.toUInt32, errp)

/-! ## Assignments -/

/-- What stands before the first `=`. -/
def putName (string : List UInt8) : List UInt8 := string.takeWhile (· ≠ equals)

/-- What stands after it; a string without one has no value. -/
def putValue (string : List UInt8) : Option (List UInt8) :=
  if equals ∈ string then some (string.drop ((putName string).length + 1)) else none

/-- `putenv` of the C library: a string without `=` removes the variable. -/
def putenv (string : List UInt8) (env : Env) : Env :=
  Function.update env (putName string) (putValue string)

/-- `none` is a failure, `-1`. -/
def confPut (putenvOk : List UInt8 → Bool) (string : List UInt8) (env : Env) : Option Env :=
  match confEnvvarAlloc malloc string with
  | none => none
  | some envstr => if putenvOk envstr then some (putenv envstr env) else none

/-! ## The file -/

/-- A file that was opened: what can be read, whether reading ends with an error
and whether `fclose` succeeds. -/
structure ConfFile where
  bytes : List UInt8
  readError : Bool
  closes : Bool

/-- At most `n` bytes, up to the end of the line, and what follows. -/
def fgetsBytes : Nat → List UInt8 → List UInt8 × List UInt8
  | 0, bytes => ([], bytes)
  | _ + 1, [] => ([], [])
  | n + 1, b :: bytes =>
      if b = newline then ([b], bytes)
      else
        let (chunk, rest) := fgetsBytes n bytes
        (b :: chunk, rest)

/-- NULL at the end of the file, and when an error keeps the chunk from being
completed. -/
def fgets (readError : Bool) (size : Nat) (bytes : List UInt8) : Option (List UInt8 × List UInt8) :=
  let (chunk, rest) := fgetsBytes (size - 1) bytes
  if chunk = [] then none
  else if readError ∧ rest = [] ∧ chunk.length < size - 1 ∧ newline ∉ chunk then none
  else some (chunk, rest)

def confLoadMaxline : Nat := 1024

/-- The line as a C string, cut off by `strcspn(line, "#\n")`. -/
def confLine (chunk : List UInt8) : List UInt8 :=
  (chunk.takeWhile (· ≠ 0)).takeWhile fun b => b ≠ hash ∧ b ≠ newline

variable (putenvOk : List UInt8 → Bool)

/-- The loop of `conf_load`, `fuel` iterations before a bound that is never
reached: every chunk takes a byte.  Whether it came to its end is told too: it
stops when `conf_put` fails. -/
def confLoadLoop (readError : Bool) : Nat → List UInt8 → Env → Env × Bool
  | 0, _, env => (env, true)
  | fuel + 1, bytes, env =>
      match fgets readError confLoadMaxline bytes with
      | none => (env, true)
      | some (chunk, rest) =>
          match confPut malloc putenvOk (confLine chunk) env with
          | none => (env, false)
          | some env => confLoadLoop readError fuel rest env

/-- The value returned, and the environment.  `none` is a file that cannot be
opened. -/
def confLoad (file : Option ConfFile) (env : Env) : Int32 × Env :=
  match file with
  | none => (-1, env)
  | some file =>
      let (env, ended) :=
        confLoadLoop malloc putenvOk file.readError (file.bytes.length + 1) file.bytes env
      (if ¬ ended ∨ file.readError ∨ ¬ file.closes then -1 else 0, env)

end Malloc
end Middfs
