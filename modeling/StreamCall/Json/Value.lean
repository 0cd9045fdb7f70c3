import StreamCall.Json.Number

/-!
# Any value

`check` reads a document that holds any one JSON value and reports its first fault.  Other
than passing over a value, it checks every string and number, and it refuses brackets that
are nested too deeply.
-/

namespace StreamCall.Json

/-- How many brackets may be open at once, plus one. -/
def depthLimit : Nat := 128

/-- Reads a member's name and its colon, up to the member's value. -/
def memberName (rest : Bytes) : Scan String :=
  match string rest with
  | .error f => .error f
  | .ok (name, rest) =>
    match skipSpace rest with
    | [] => faultOn .eofInObject []
    | c :: rest' => if c = colon then .ok (name, rest') else faultOn .expectedColon (c :: rest')

/-- Reads a value that is no bracket. -/
def checkScalar (b : UInt8) (rest : Bytes) : Except Fault Bytes :=
  if b = 0x6E then word ull rest
  else if b = 0x74 then word rue rest
  else if b = 0x66 then word alse rest
  else if b = 0x2D then (number false rest).map Prod.snd
  else if isDigit b then (number true (b :: rest)).map Prod.snd
  else if b = quote then (string rest).map Prod.snd
  else faultOn .expectedValue (b :: rest)

mutual

/-- Reads a value inside fewer than `depth` open brackets. -/
def checkValue : Nat → Nat → Bytes → Except Fault Bytes
  | 0, _, rest => faultOn .eofInValue rest
  | n + 1, depth, rest =>
    match skipSpace rest with
    | [] => faultOn .eofInValue []
    | b :: rest =>
      if b = openList then
        if depth ≤ 1 then faultOn .recursionLimit (b :: rest)
        else checkElements n (depth - 1) true rest
      else if b = openObject then
        if depth ≤ 1 then faultOn .recursionLimit (b :: rest)
        else checkMembers n (depth - 1) true rest
      else checkScalar b rest

/-- Reads what is left of a list; `first` tells that nothing of it has been read. -/
def checkElements : Nat → Nat → Bool → Bytes → Except Fault Bytes
  | 0, _, _, rest => faultOn .eofInList rest
  | n + 1, depth, first, rest =>
    match skipSpace rest with
    | [] => faultOn .eofInList []
    | b :: rest' =>
      if b = closeList then .ok rest'
      else if b = comma ∧ !first then
        match skipSpace rest' with
        | [] => faultOn .eofInValue []
        | c :: rest'' =>
          if c = closeList then faultOn .trailingComma (c :: rest'')
          else
            match checkValue n depth (c :: rest'') with
            | .error f => .error f
            | .ok rest => checkElements n depth false rest
      else if first then
        match checkValue n depth (b :: rest') with
        | .error f => .error f
        | .ok rest => checkElements n depth false rest
      else faultOn .expectedListEnd (b :: rest')

/-- Reads what is left of an object; `first` tells that nothing of it has been read. -/
def checkMembers : Nat → Nat → Bool → Bytes → Except Fault Bytes
  | 0, _, _, rest => faultOn .eofInObject rest
  | n + 1, depth, first, rest =>
    match skipSpace rest with
    | [] => faultOn .eofInObject []
    | b :: rest' =>
      if b = closeObject then .ok rest'
      else if b = comma ∧ !first then
        match skipSpace rest' with
        | [] => faultOn .eofInValue []
        | c :: rest'' =>
          if c = closeObject then faultOn .trailingComma (c :: rest'')
          else if c = quote then checkMember n depth rest''
          else faultOn .keyNotString (c :: rest'')
      else if first then
        if b = quote then checkMember n depth rest'
        else faultOn .keyNotString (b :: rest')
      else faultOn .expectedObjectEnd (b :: rest')

/-- Reads a member behind the opening quote of its name, and the members behind it. -/
def checkMember : Nat → Nat → Bytes → Except Fault Bytes
  | 0, _, rest => faultOn .eofInObject rest
  | n + 1, depth, rest =>
    match memberName rest with
    | .error f => .error f
    | .ok (_, rest) =>
      match checkValue n depth rest with
      | .error f => .error f
      | .ok rest => checkMembers n depth false rest

end

/-- The first fault of a document that should hold one JSON value. -/
def check (document : Bytes) : Except Error Unit :=
  match checkValue (4 * document.length + 4) depthLimit document with
  | .error f => .error (f.locate document)
  | .ok rest =>
    match skipSpace rest with
    | [] => .ok ()
    | _ :: rest => .error (Fault.locate document ⟨.trailingCharacters, rest.length⟩)

end StreamCall.Json
