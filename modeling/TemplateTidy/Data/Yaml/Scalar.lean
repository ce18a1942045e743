import TemplateTidy.Data.Json
import TemplateTidy.Pattern.Search

/-! # Plain scalars

A plain scalar is a truth value, a number, a moment or nothing if it is spelt like one, and text
otherwise.  `Kind.ofPlain` tells what a scalar is spelt like and `Kind.read?` its value. -/

namespace TemplateTidy.Data.Yaml

/-- What a scalar stands for. -/
inductive Kind where
  | null
  | bool
  | int
  | float
  | moment
  | text
  /-- The key under which other mappings are merged. -/
  | merge
  /-- The key of a default; text as a key, nothing elsewhere. -/
  | default
deriving DecidableEq, Repr

def spelling (source : String) : Pattern :=
  Pattern.ofSource { strict := true, verbose := true } source

/-- The spellings of each kind, in the order in which they are tried. -/
def spellings : List (Kind × Pattern) :=
  [(.bool, spelling r"^(?:yes|Yes|YES|no|No|NO|true|True|TRUE|false|False|FALSE|on|On|ON|off|Off|OFF)$"),
    (.float, spelling r"^(?:[-+]?(?:[0-9][0-9_]*)\.[0-9_]*(?:[eE][-+][0-9]+)?
        |\.[0-9][0-9_]*(?:[eE][-+][0-9]+)?
        |[-+]?[0-9][0-9_]*(?::[0-5]?[0-9])+\.[0-9_]*
        |[-+]?\.(?:inf|Inf|INF)
        |\.(?:nan|NaN|NAN))$"),
    (.int, spelling r"^(?:[-+]?0b[0-1_]+
        |[-+]?0[0-7_]+
        |[-+]?(?:0|[1-9][0-9_]*)
        |[-+]?0x[0-9a-fA-F_]+
        |[-+]?[1-9][0-9_]*(?::[0-5]?[0-9])+)$"),
    (.merge, spelling r"^(?:<<)$"),
    (.default, spelling r"^(?:=)$"),
    (.null, spelling r"^(?:~|null|Null|NULL|)$"),
    (.moment, spelling r"^(?:[0-9][0-9][0-9][0-9]-[0-9][0-9]-[0-9][0-9]
        |[0-9][0-9][0-9][0-9]-[0-9][0-9]?-[0-9][0-9]?
        (?:[Tt]|[ \t]+)[0-9][0-9]?
        :[0-9][0-9]:[0-9][0-9](?:\.[0-9]*)?
        (?:[ \t]*(?:Z|[-+][0-9][0-9]?(?::[0-9][0-9])?))?)$")]

/-- What a plain scalar is spelt like. -/
def Kind.ofPlain (s : List Char) : Kind :=
  match spellings.find? fun (_, p) => (p.matchStart? s.toArray).isSome with
  | some (kind, _) => kind
  | none => .text

/-- The number that digits of a base write; nothing if there are none. -/
def digits? (base : Nat) (s : List Char) : Option Nat :=
  if s.isEmpty then none
  else s.foldlM (fun n c => do
    let d ← Text.hexDigit? c
    if d < base then some (n * base + d) else none) 0

/-- The sign of a number and what follows it. -/
def signed (s : List Char) : Bool × List Char :=
  match s with
  | '-' :: rest => (true, rest)
  | '+' :: rest => (false, rest)
  | _ => (false, s)

/-- A whole number: binary, hexadecimal, octal, in base sixty with colons, or decimal. -/
def int? (s : List Char) : Option Int := do
  let (negative, s) := signed (s.filter (· != '_'))
  let size ← match s with
    | '0' :: 'b' :: rest => digits? 2 rest
    | '0' :: 'x' :: rest => digits? 16 rest
    | ['0'] => some 0
    | '0' :: rest => digits? 8 rest
    | _ =>
      (s.splitOn ':').foldlM (fun n part => do return n * 60 + (← digits? 10 part)) 0
  return if negative then -(size : Int) else (size : Int)

/-- A decimal fraction with an optional exponent. -/
def decimal? (s : List Char) : Option Float := do
  let whole := s.takeWhile Char.isDigit
  let rest := s.drop whole.length
  let (fraction, rest) := match rest with
    | '.' :: rest => (rest.takeWhile Char.isDigit, rest.dropWhile Char.isDigit)
    | _ => ([], rest)
  if whole.isEmpty && fraction.isEmpty then none
  let exponent : Int ← match rest with
    | [] => some 0
    | 'e' :: rest => do
      let (down, digits) := signed rest
      let n ← digits? 10 digits
      some (if down then -(n : Int) else (n : Int))
    | _ => none
  return Json.floatOf false (Json.natOf (whole ++ fraction)) (exponent - (fraction.length : Int))

/-- The number above all others. -/
def infinity : Float := 1.0 / 0.0

/-- The number that is none. -/
def notANumber : Float := 0.0 / 0.0

/-- A floating-point number, plain or in base sixty with colons. -/
def float? (s : List Char) : Option Float := do
  let (negative, s) := signed ((s.filter (· != '_')).map Char.toLower)
  if s == ".nan".toList then return notANumber
  let size ←
    if s == ".inf".toList then some infinity
    else (s.splitOn ':').foldlM (fun x part => do return x * 60 + (← decimal? part)) 0.0
  return if negative then -size else size

def Kind.read? (kind : Kind) (s : List Char) : Option Value :=
  match kind with
  | .null => some .null
  | .bool =>
    let word := s.map Char.toLower
    if ["yes".toList, "true".toList, "on".toList].contains word then some (.bool true)
    else if ["no".toList, "false".toList, "off".toList].contains word then some (.bool false)
    else none
  | .int => (int? s).map .int
  | .float => (float? s).map .float
  | .moment => some (.moment (String.ofList s))
  | .text => some (.text (String.ofList s))
  | .merge | .default => none

end TemplateTidy.Data.Yaml
