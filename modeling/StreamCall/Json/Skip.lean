import StreamCall.Json.Scan

/-!
# Passing over a value

`skip` finds the end of a JSON value of any depth.  It keeps the brackets that are open in
a list, so a deep document costs memory and no recursion.
-/

namespace StreamCall.Json

/-- A bracket that has been opened. -/
inductive Bracket where
  | list
  | object
deriving DecidableEq, Repr

/-- What comes next: a value, or something behind a value. -/
inductive Phase where
  | value
  | after
deriving DecidableEq, Repr

/-- Passes over a member's name and its colon, up to the member's value. -/
def skipName (rest : Bytes) : Except Fault Bytes :=
  match skipSpace rest with
  | [] => faultOn .eofInObject []
  | b :: rest =>
    if b = quote then
      match skipString rest with
      | .error f => .error f
      | .ok rest =>
        match skipSpace rest with
        | [] => faultOn .eofInObject []
        | c :: rest' => if c = colon then .ok rest' else faultOn .expectedColon (c :: rest')
    else faultOn .keyNotString (b :: rest)

/-- Passes over a value that is no bracket. -/
def skipScalar (b : UInt8) (rest : Bytes) : Except Fault Bytes :=
  if b = 0x6E then word ull rest
  else if b = 0x74 then word rue rest
  else if b = 0x66 then word alse rest
  else if b = 0x2D then skipNumber rest
  else if isDigit b then skipNumber (b :: rest)
  else if b = quote then skipString rest
  else faultOn .expectedValue (b :: rest)

/-- Passes over what is left of a value inside the open brackets, the innermost first. Every
step but the last passes over at least one byte; the first argument, as long as the text,
bounds their number. -/
def skipFrom : Bytes → Phase → List Bracket → Bytes → Except Fault Bytes
  | _, .after, [], rest => .ok rest
  | [], .value, _, rest => faultOn .eofInValue rest
  | [], .after, .list :: _, rest => faultOn .eofInList rest
  | [], .after, .object :: _, rest => faultOn .eofInObject rest
  | _ :: bound, .value, stack, rest =>
    match skipSpace rest with
    | [] => faultOn .eofInValue []
    | b :: rest =>
      if b = openList then
        match skipSpace rest with
        | [] => faultOn .eofInList []
        | c :: rest' =>
          if c = closeList then skipFrom bound .after stack rest'
          else skipFrom bound .value (.list :: stack) (c :: rest')
      else if b = openObject then
        match skipSpace rest with
        | [] => faultOn .eofInObject []
        | c :: rest' =>
          if c = closeObject then skipFrom bound .after stack rest'
          else
            match skipName (c :: rest') with
            | .error f => .error f
            | .ok rest => skipFrom bound .value (.object :: stack) rest
      else
        match skipScalar b rest with
        | .error f => .error f
        | .ok rest => skipFrom bound .after stack rest
  | _ :: bound, .after, .list :: stack, rest =>
    match skipSpace rest with
    | [] => faultOn .eofInList []
    | b :: rest' =>
      if b = comma then skipFrom bound .value (.list :: stack) rest'
      else if b = closeList then skipFrom bound .after stack rest'
      else faultOn .expectedListEnd (b :: rest')
  | _ :: bound, .after, .object :: stack, rest =>
    match skipSpace rest with
    | [] => faultOn .eofInObject []
    | b :: rest' =>
      if b = comma then
        match skipName rest' with
        | .error f => .error f
        | .ok rest => skipFrom bound .value (.object :: stack) rest
      else if b = closeObject then skipFrom bound .after stack rest'
      else faultOn .expectedObjectEnd (b :: rest')

/-- Passes over a value. -/
def skip (text : Bytes) : Except Fault Bytes :=
  skipFrom text .value [] text

end StreamCall.Json
