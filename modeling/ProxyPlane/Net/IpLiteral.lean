import ProxyPlane.Text.Numeral

/-!
# Literals of IP addresses

## What is here

* `Ip.readV4?`, four decimal bytes with dots between them, and `Ip.readV6?`, eight groups of up to
  four hexadecimal digits, of which one run may be left out as `::` and the last two may be written
  as an IPv4 literal.  Both read from the start of a text and return what follows.
* `Ip.isLiteral`: a whole text is an address of either kind.
* `Ip.isSocketAddress`: a whole text is an address with a port.
-/

set_option autoImplicit false
namespace ProxyPlane
namespace Ip

/-- The value of a hexadecimal digit. -/
def hexDigit? (c : Char) : Option Nat :=
  if '0' ≤ c ∧ c ≤ '9' then some (c.toNat - '0'.toNat)
  else if 'a' ≤ c ∧ c ≤ 'f' then some (c.toNat - 'a'.toNat + 10)
  else if 'A' ≤ c ∧ c ≤ 'F' then some (c.toNat - 'A'.toNat + 10)
  else none

/-- The digits at the start of a text. -/
def spanDigits (digit? : Char → Option Nat) : List Char → List Nat × List Char
  | [] => ([], [])
  | c :: cs =>
    match digit? c with
    | some d =>
      let more := spanDigits digit? cs
      (d :: more.1, more.2)
    | none => ([], c :: cs)

/-- The number of a list of digits. -/
def ofDigits (base : Nat) (ds : List Nat) : Nat := ds.foldl (fun n d => n * base + d) 0

/-- A byte in decimal, without a superfluous zero in front. -/
def byte? (cs : List Char) : Option (Nat × List Char) :=
  let (ds, rest) := spanDigits Numeral.digit? cs
  match ds with
  | [] => none
  | 0 :: _ :: _ => none
  | _ =>
    let n := ofDigits 10 ds
    if ds.length ≤ 3 ∧ n < 256 then some (n, rest) else none

/-- The text behind a character that must stand at its start. -/
def after? (c : Char) : List Char → Option (List Char)
  | [] => none
  | x :: rest => if x = c then some rest else none

/-- An IPv4 literal as two groups of 16 bits, and what follows it. -/
def readV4? (cs : List Char) : Option ((Nat × Nat) × List Char) := do
  let (a, cs) ← byte? cs
  let (b, cs) ← byte? (← after? '.' cs)
  let (c, cs) ← byte? (← after? '.' cs)
  let (d, cs) ← byte? (← after? '.' cs)
  return ((a * 256 + b, c * 256 + d), cs)

/-- A group of one to four hexadecimal digits. -/
def group? (cs : List Char) : Option (Nat × List Char) :=
  let (ds, rest) := spanDigits hexDigit? cs
  if 1 ≤ ds.length ∧ ds.length ≤ 4 then some (ofDigits 16 ds, rest) else none

/-- At most so many groups with colons between them, whether an IPv4 literal ended them, and what
follows. -/
def groups : Nat → Bool → List Char → List Nat × Bool × List Char
  | 0, _, cs => ([], false, cs)
  | limit + 1, first, cs =>
    match if first then some cs else after? ':' cs with
    | none => ([], false, cs)
    | some body =>
      match if limit = 0 then none else readV4? body with
      | some ((x, y), rest) => ([x, y], true, rest)
      | none =>
        match group? body with
        | none => ([], false, cs)
        | some (g, rest) =>
          let more := groups limit false rest
          (g :: more.1, more.2)

/-- An IPv6 literal as eight groups, and what follows it. -/
def readV6? (cs : List Char) : Option (List Nat × List Char) :=
  let (head, v4, rest) := groups 8 true cs
  if head.length = 8 then some (head, rest)
  else if v4 then none
  else do
    let rest ← after? ':' (← after? ':' rest)
    let (tail, _, rest) := groups (7 - head.length) true rest
    return (head ++ List.replicate (8 - head.length - tail.length) 0 ++ tail, rest)

/-- Whether a text is an IPv4 or an IPv6 literal. -/
def isLiteral (s : String) : Bool :=
  match readV4? s.toList with
  | some (_, rest) => rest.isEmpty
  | none =>
    match readV6? s.toList with
    | some (_, rest) => rest.isEmpty
    | none => false

/-- Whether a text is a number below a bound, in decimal digits only. -/
def isNumberBelow (bound : Nat) (cs : List Char) : Bool :=
  match spanDigits Numeral.digit? cs with
  | ([], _) => false
  | (ds, rest) => rest.isEmpty && ofDigits 10 ds < bound

/-- Whether a text is an IPv4 literal, or an IPv6 literal in brackets, with a port.  A zone number
may stand behind the IPv6 literal. -/
def isSocketAddress (s : String) : Bool :=
  match readV4? s.toList with
  | some (_, ':' :: port) => isNumberBelow (Nat.pow 2 16) port
  | some _ => false
  | none =>
    match s.toList with
    | '[' :: cs =>
      match readV6? cs with
      | some (_, rest) =>
        let rest := match rest with
          | '%' :: zone =>
            match spanDigits Numeral.digit? zone with
            | ([], _) => none
            | (ds, rest) => if ofDigits 10 ds < Nat.pow 2 32 then some rest else none
          | rest => some rest
        match rest with
        | some (']' :: ':' :: port) => isNumberBelow (Nat.pow 2 16) port
        | _ => false
      | none => false
    | _ => false

end Ip
end ProxyPlane
