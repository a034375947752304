import TaskLease.Number.Binary64
import TaskLease.Store.Access
import TaskLease.Table
import TaskLease.Text.Decimal

/-!
# Scripts on hashes

On a server that keeps hashes, each lock is one hash with the fields `name`, `lock_until`, `locked_at`
and `locked_by`, and each operation is one script, so the read and the conditional write are one atomic
unit. Times are milliseconds since the epoch by the clock of the server.

The server computes with double precision numbers and keeps all fields as texts, so a field need not be
a number; comparing or adding what is none ends the script, and the fields set before that stay set. For
every script its source is given, as it is sent to the server, and what it does to a hash.
-/

namespace TaskLease

namespace Redis

/-- The fields of a hash. -/
abbrev Fields := Table String String

/-- How a script begins: it takes the server's time in milliseconds, and writes numbers as integers. -/
def prelude : String :=
  "\nif redis.replicate_commands then redis.replicate_commands() end\nlocal t = redis.call('TIME')\nlocal now = tonumber(t[1]) * 1000 + math.floor(tonumber(t[2]) / 1000)\nlocal function ms(v) return string.format('%d', v) end\n"

/-- The source of the write that begins a lease. -/
def writeFresh : String :=
  "redis.call('HSET', KEYS[1], 'name', ARGV[3], 'lock_until', ms(now + tonumber(ARGV[1])),\n  'locked_at', ms(now), 'locked_by', ARGV[2])\nreturn 1\n"

/-- The source of an operation's script. -/
def source : Operation → String
  | .insert => prelude ++
    "\nlocal lock_until = redis.call('HGET', KEYS[1], 'lock_until')\nif lock_until and tonumber(lock_until) > now then\n  return 0\nend\n"
    ++ writeFresh
  | .update => prelude ++
    "\nlocal lock_until = redis.call('HGET', KEYS[1], 'lock_until')\nif not lock_until or tonumber(lock_until) > now then\n  return 0\nend\n"
    ++ writeFresh
  | .unlock => prelude ++
    "\nif redis.call('HGET', KEYS[1], 'locked_by') ~= ARGV[2] then\n  return 0\nend\nlocal locked_at = tonumber(redis.call('HGET', KEYS[1], 'locked_at'))\nredis.call('HSET', KEYS[1], 'lock_until', ms(math.max(now, locked_at + tonumber(ARGV[1]))))\nreturn 1\n"
  | .extend => prelude ++
    "\nif redis.call('HGET', KEYS[1], 'locked_by') ~= ARGV[2] then\n  return 0\nend\nif tonumber(redis.call('HGET', KEYS[1], 'lock_until')) <= now then\n  return 0\nend\nredis.call('HSET', KEYS[1], 'lock_until', ms(now + tonumber(ARGV[1])), 'locked_at', ms(now))\nreturn 1\n"

/-- The blanks that may stand around a number in a field. -/
def isFieldBlank (c : Char) : Bool :=
  c == ' ' || c == '\t' || c == '\n' || c == '\r' || c == '\x0b' || c == '\x0c'

/-- A field without the blanks around it. -/
def trimField (cs : List Char) : List Char :=
  ((cs.dropWhile isFieldBlank).reverse.dropWhile isFieldBlank).reverse

/-- The exponent at the end of a decimal number, if it has one. -/
def readExponent : List Char → Option Int
  | [] => some 0
  | e :: rest =>
    if e = 'e' ∨ e = 'E' then
      let (negative, digits) := match rest with
        | '-' :: rest => (true, rest)
        | '+' :: rest => (false, rest)
        | rest => (false, rest)
      if digits.isEmpty || !digits.all Char.isDigit then none
      else some (if negative then -(Text.value digits : Int) else Text.value digits)
    else none

/-- A decimal number without a sign: digits, perhaps with a point, and perhaps an exponent. -/
def readDecimal (negative : Bool) (cs : List Char) : Option Binary64 := do
  let (whole, rest) := Text.takeDigits cs.length cs
  let (decimals, rest) := match rest with
    | '.' :: rest => Text.takeDigits rest.length rest
    | rest => ([], rest)
  if whole.isEmpty ∧ decimals.isEmpty then none
  let exponent ← readExponent rest
  return .ofDecimal negative (Text.value (whole ++ decimals)) (exponent - decimals.length)

/-- The value of a hexadecimal numeral, if it is one. -/
def readHex (cs : List Char) : Option Nat :=
  if cs.isEmpty then none
  else cs.foldlM (fun total c =>
    if c.isDigit then some (total * 16 + (c.toNat - 48))
    else if 'a' ≤ c.toLower ∧ c.toLower ≤ 'f' then some (total * 16 + (c.toLower.toNat - 87))
    else none) 0

/-- A number without a sign. -/
def readUnsigned (negative : Bool) : List Char → Option Binary64
  | '0' :: 'x' :: rest | '0' :: 'X' :: rest =>
    (readHex rest).map fun n => .ofRatio negative n 1
  | cs => readDecimal negative cs

/-- The number that a field holds, if it holds one. -/
def toNumber (text : String) : Option Binary64 :=
  match trimField text.toList with
  | '-' :: rest => readUnsigned true rest
  | '+' :: rest => readUnsigned false rest
  | rest => readUnsigned false rest

/-- A number written as an integer, without its decimals. -/
def formatInteger (x : Binary64) : String := String.ofList (Text.signedNumeral x.truncate)

/-- The time of the server, in milliseconds. -/
def serverTime (now : Instant) : Binary64 := .ofInt now.epochMillis

/-- The arguments of a script. -/
structure Arguments where
  /-- The duration that the operation uses, in milliseconds. -/
  millis : Nat
  holder : String
  name : String
deriving DecidableEq, Repr

/-- Why a script ended before its end. -/
inductive ScriptFault where
  /-- Something that is no number was compared or added. -/
  | notANumber
deriving DecidableEq, Repr

/-- The number in a field of a hash, whether the field is missing or holds none. -/
def fieldNumber (fields : Fields) (field : String) : Except ScriptFault Binary64 :=
  match (fields.get? field).bind toNumber with
  | some x => .ok x
  | none => .error .notANumber

/-- The fields of a lease that begins at `now`. -/
def freshFields (fields : Fields) (arguments : Arguments) (now : Binary64) : Fields :=
  (((fields.insert "name" arguments.name).insert "lock_until"
      (formatInteger (now.add (.ofNat arguments.millis)))).insert "locked_at"
        (formatInteger now)).insert "locked_by" arguments.holder

/-- What a script makes of a hash: its answer, if it comes to one, and the fields afterwards. A missing
hash has no fields. -/
def run (op : Operation) (arguments : Arguments) (time : Instant) (fields : Fields) :
    Except ScriptFault Nat × Fields :=
  let now := serverTime time
  match op with
  | .insert =>
    if fields.contains "lock_until" then
      match fieldNumber fields "lock_until" with
      | .error fault => (.error fault, fields)
      | .ok lockUntil =>
        if now.lt lockUntil then (.ok 0, fields) else (.ok 1, freshFields fields arguments now)
    else (.ok 1, freshFields fields arguments now)
  | .update =>
    if fields.contains "lock_until" then
      match fieldNumber fields "lock_until" with
      | .error fault => (.error fault, fields)
      | .ok lockUntil =>
        if now.lt lockUntil then (.ok 0, fields) else (.ok 1, freshFields fields arguments now)
    else (.ok 0, fields)
  | .unlock =>
    if fields.get? "locked_by" = some arguments.holder then
      match fieldNumber fields "locked_at" with
      | .error fault => (.error fault, fields)
      | .ok lockedAt =>
        let least := lockedAt.add (.ofNat arguments.millis)
        let lockUntil := if now.lt least then least else now
        (.ok 1, fields.insert "lock_until" (formatInteger lockUntil))
    else (.ok 0, fields)
  | .extend =>
    if fields.get? "locked_by" = some arguments.holder then
      match fieldNumber fields "lock_until" with
      | .error fault => (.error fault, fields)
      | .ok lockUntil =>
        if lockUntil.le now then (.ok 0, fields)
        else
          (.ok 1, (fields.insert "lock_until"
            (formatInteger (now.add (.ofNat arguments.millis)))).insert "locked_at"
              (formatInteger now))
    else (.ok 0, fields)

end Redis

end TaskLease
