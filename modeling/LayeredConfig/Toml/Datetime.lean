/-! Reading TOML dates and times (RFC 3339 with the format's relaxations) into
their normal text. The forms are a local date `YYYY-MM-DD`, a local time
`HH:MM[:SS[.fraction]]`, a local date and time joined by `T`, `t` or a space,
and the same with an offset `Z`, `z` or `±HH:MM`.

The text is first cut into runs of digits and single separators; the parts
are then checked in order, first their presence, then their widths, then their
ranges (months `01`–`12`, days within the month with leap years, hours to `23`,
minutes to `59`, seconds to `60`), and the first problem gives the message;
anything but `T`, `t` or a blank after a date asks for the `T`. A
fraction keeps nine digits; the normal text writes seconds even when they were
left out, the fraction without trailing zeros, and a zero offset as `+00:00`. -/

namespace LayeredConfig

namespace Toml

inductive DatePiece where
  | digits (ds : List Char)
  | dash
  | colon
  | dot
  | tee
  | space
  | zed
  | plus
  | other
  deriving DecidableEq, Inhabited

def DatePiece.ofChar (c : Char) : DatePiece :=
  if c = '-' then .dash
  else if c = ':' then .colon
  else if c = '.' then .dot
  else if c = 'T' || c = 't' then .tee
  else if c = ' ' then .space
  else if c = 'Z' || c = 'z' then .zed
  else if c = '+' then .plus
  else .other

/-- Cut a text into pieces, joining neighbouring digits. -/
def datePieces : List Char → List DatePiece
  | [] => []
  | c :: rest =>
    if c.isDigit then
      match datePieces rest with
      | .digits ds :: more => .digits (c :: ds) :: more
      | more => .digits [c] :: more
    else DatePiece.ofChar c :: datePieces rest

def dateMessage (what expected : Option String) : String :=
  match what, expected with
  | some w, some e => "invalid " ++ w ++ ", expected " ++ e
  | some w, none => "invalid " ++ w
  | none, some e => "invalid datetime, expected " ++ e
  | none, none => "invalid datetime"

def dateFail {α : Type} (what expected : Option String) : Except String α :=
  .error (dateMessage what expected)

def takeDigits (what : Option String) (expected : String) :
    List DatePiece → Except String (List Char × List DatePiece)
  | .digits ds :: rest => .ok (ds, rest)
  | _ => dateFail what (some expected)

def takeSeparator (sep : DatePiece) (what : Option String) (expected : String) :
    List DatePiece → Except String (List DatePiece)
  | p :: rest => if p = sep then .ok rest else dateFail what (some expected)
  | [] => dateFail what (some expected)

def digitsNat (ds : List Char) : Nat := ds.foldl (fun acc d => acc * 10 + (d.toNat - 48)) 0

def pad2 (n : Nat) : String := if n < 10 then "0" ++ toString n else toString n

def isLeapYear (year : Nat) : Bool := year % 4 = 0 && (year % 100 != 0 || year % 400 = 0)

def lastDay (year month : Nat) : Nat :=
  if month = 2 then (if isLeapYear year then 29 else 28)
  else if month = 4 || month = 6 || month = 9 || month = 11 then 30 else 31

def readDateRest (year : List Char) (pieces : List DatePiece) : Except String (String × List DatePiece) := do
  let (month, pieces) ← takeDigits (some "date") "month" pieces
  let pieces ← takeSeparator .dash (some "date") "`-` (MM-DD)" pieces
  let (day, pieces) ← takeDigits (some "date") "day" pieces
  if year.length != 4 then dateFail (some "date") (some "a four-digit year (YYYY)")
  else if month.length != 2 then dateFail (some "date") (some "a two-digit month (MM)")
  else if day.length != 2 then dateFail (some "date") (some "a two-digit day (DD)")
  else
    let y := digitsNat year
    let m := digitsNat month
    let d := digitsNat day
    if m < 1 || 12 < m then dateFail (some "date") (some "month between 01 and 12")
    else if d < 1 || lastDay y m < d then
      dateFail (some "date") (some ("day between 01 and " ++ toString (lastDay y m)))
    else .ok (String.ofList year ++ "-" ++ String.ofList month ++ "-" ++ String.ofList day, pieces)

/-- The fraction of a second as nanoseconds: its first nine digits. -/
def nanoseconds (ds : List Char) : Nat :=
  let nine := ds.take 9
  digitsNat nine * Nat.pow 10 (9 - nine.length)

/-- The text of a fraction of a second: nine digits without trailing zeros,
nothing for zero. -/
def fractionText (nanos : Nat) : String :=
  if nanos = 0 then ""
  else
    let padded := (List.replicate (9 - (toString nanos).length) '0') ++ (toString nanos).toList
    "." ++ String.ofList (padded.reverse.dropWhile (· = '0')).reverse

/-- Read a time: hours and minutes, then seconds and a fraction if present. -/
def readTime (pieces : List DatePiece) : Except String (String × List DatePiece) := do
  let (hour, pieces) ← takeDigits (some "time") "hour" pieces
  let pieces ← takeSeparator .colon (some "time") "`:` (HH:MM)" pieces
  let (minute, pieces) ← takeDigits (some "time") "minute" pieces
  let (second, pieces) ← match pieces with
    | .colon :: more => do
      let (s, more) ← takeDigits (some "time") "second" more
      pure (some s, more)
    | _ => pure (none, pieces)
  let (fraction, pieces) ← match second, pieces with
    | some _, .dot :: more => do
      let (f, more) ← takeDigits (some "time") "nanosecond" more
      pure (f, more)
    | _, _ => pure ([], pieces)
  if hour.length != 2 then dateFail (some "time") (some "a two-digit hour (HH)")
  else if minute.length != 2 then dateFail (some "time") (some "a two-digit minute (MM)")
  else if (second.map (·.length != 2)).getD false then dateFail (some "time") (some "a two-digit second (SS)")
  else
    let h := digitsNat hour
    let m := digitsNat minute
    let s := (second.map digitsNat).getD 0
    if 23 < h then dateFail (some "time") (some "hour between 00 and 23")
    else if 59 < m then dateFail (some "time") (some "minute between 00 and 59")
    else if 60 < s then dateFail (some "time") (some "second between 00 and 60")
    else .ok (pad2 h ++ ":" ++ pad2 m ++ ":" ++ pad2 s ++ fractionText (nanoseconds fraction), pieces)

def readOffset (pieces : List DatePiece) : Except String (String × List DatePiece) :=
  match pieces with
  | [] => .ok ("", [])
  | .zed :: rest => .ok ("Z", rest)
  | sign :: rest =>
    if sign = .plus || sign = .dash then do
      let (hours, rest) ← takeDigits (some "offset") "hour" rest
      let rest ← takeSeparator .colon (some "offset") "`:` (HH:MM)" rest
      let (minutes, rest) ← takeDigits (some "offset") "minute" rest
      if hours.length != 2 then dateFail (some "offset") (some "a two-digit hour (HH)")
      else if minutes.length != 2 then dateFail (some "offset") (some "a two-digit minute (MM)")
      else
        let h := digitsNat hours
        let m := digitsNat minutes
        if 23 < h then dateFail (some "offset") (some "hours between 00 and 23")
        else if 59 < m then dateFail (some "offset") (some "minutes between 00 and 59")
        else
          let negative := sign = .dash && (h != 0 || m != 0)
          .ok ((if negative then "-" else "+") ++ pad2 h ++ ":" ++ pad2 m, rest)
    else dateFail (some "offset") (some "`Z`, +OFFSET, -OFFSET")

def finishDate (text : String) : List DatePiece → Except String String
  | [] => .ok text
  | _ => dateFail none none

/-- The normal text of a date or time, or the message of its first problem. -/
def readDatetime (text : List Char) : Except String String :=
  let pieces := datePieces text
  match pieces with
  | .digits first :: rest =>
    match rest with
    | .dash :: more => do
      let (date, more) ← readDateRest first more
      match more with
      | p :: after =>
        if p = .tee || p = .space then do
          let (time, after) ← readTime after
          let (offset, after) ← readOffset after
          finishDate (date ++ "T" ++ time ++ offset) after
        else dateFail (some "date-time") (some "`T` between date and time")
      | [] => .ok date
    | .colon :: _ => do
      let (time, more) ← readTime pieces
      finishDate time more
    | _ => dateFail none (some "`-` (YYYY-MM) or `:` (HH:MM)")
  | _ => dateFail none (some "year or hour")

end Toml

end LayeredConfig
