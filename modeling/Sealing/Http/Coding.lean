import Sealing.Http.Message

/-!
# Content codings

A client names the codings that it accepts, each with a weight from nothing to one. The coding of a
response is the one of greatest weight, and among equals the one that compresses best; entries that
name no known coding, or whose weight is no weight, do not count. A client that names none gets the
body as it is.
-/

namespace Sealing.Http

/-- A content coding, the least compressing first. -/
inductive Coding where
  | identity | deflate | gzip | brotli | zstd
deriving DecidableEq, Repr

namespace Coding

/-- The rank of a coding: better compression, higher rank. -/
def rank : Coding → Nat
  | identity => 0
  | deflate => 1
  | gzip => 2
  | brotli => 3
  | zstd => 4

/-- The name of a coding in a header field. -/
def name : Coding → String
  | identity => "identity"
  | deflate => "deflate"
  | gzip => "gzip"
  | brotli => "br"
  | zstd => "zstd"

/-- The coding of a name, in any letter case. One coding has a second name. -/
def ofName? (text : String) : Option Coding :=
  match Text.lowerAsciiText text with
  | "identity" => some identity
  | "deflate" => some deflate
  | "gzip" | "x-gzip" => some gzip
  | "br" => some brotli
  | "zstd" => some zstd
  | _ => none

end Coding

/-- A coding that a client accepts. -/
structure Preference where
  coding : Coding
  /-- The weight in thousandths, at most a thousand. -/
  weight : Nat
deriving DecidableEq, Repr

namespace Preference

/-- The value of a digit at the place worth `place` thousandths, and of the digits after it. -/
def fraction? (place : Nat) : List Char → Option Nat
  | [] => some 0
  | c :: cs =>
    if c.isDigit ∧ 0 < place then
      (fraction? (place / 10) cs).map (place * (c.toNat - '0'.toNat) + ·)
    else none

/-- Reads a weight: a zero or a one, and at most three decimal places. -/
def weight? (text : List Char) : Option Nat :=
  let whole (unit : Nat) (rest : List Char) : Option Nat :=
    match rest with
    | [] => some unit
    | '.' :: places => ((fraction? 100 places).map (unit + ·)).filter (· ≤ 1000)
    | _ => none
  match text with
  | q :: '=' :: digit :: rest =>
    if q = 'q' ∨ q = 'Q' then
      match digit with
      | '0' => whole 0 rest
      | '1' => whole 1000 rest
      | _ => none
    else none
  | _ => none

/-- Reads one entry: a coding, and after a semicolon its weight, which is one if nothing is said. -/
def parse? (entry : List Char) : Option Preference := do
  let coding ← Coding.ofName? (Text.trim (String.ofList (entry.takeWhile (· ≠ ';'))))
  match entry.dropWhile (· ≠ ';') with
  | [] => some ⟨coding, 1000⟩
  | _ :: text => (weight? (Text.trimList text)).map (⟨coding, ·⟩)

/-- Whether the characters of a header value may all be looked at. -/
def isReadable (value : String) : Bool :=
  value.toList.all fun c => c = '\t' || (' ' ≤ c && c ≤ '~')

/-- The entries of a list that is separated by commas. -/
def entries (value : String) : List (List Char) :=
  (value.toList.splitOn ',')

/-- The codings that a request accepts. -/
def ofHeaders (headers : Headers) : List Preference :=
  ((headers.values "accept-encoding").filter isReadable).flatMap fun value =>
    (entries value).filterMap parse?

/-- Whether `a` comes before `b`: by weight, then by rank. -/
def isBelow (a b : Preference) : Bool :=
  a.weight < b.weight || (a.weight = b.weight && a.coding.rank ≤ b.coding.rank)

/-- The best of some preferences, leaving out those without weight. -/
def best? (preferences : List Preference) : Option Preference :=
  (preferences.filter (0 < ·.weight)).foldl
    (fun best? p =>
      match best? with
      | none => some p
      | some best => if isBelow best p then some p else some best) none

end Preference

/-- The coding of the response to a request with these header fields. -/
def Coding.negotiate (headers : Headers) : Coding :=
  ((Preference.best? (Preference.ofHeaders headers)).map (·.coding)).getD .identity

/-- The least size of a body that is worth a coding. -/
def Coding.threshold : Nat := 32

/-- Puts a response into the coding that the request prefers. Small bodies are left alone; for the
others the response says that it depends on the accepted codings. -/
def Response.negotiated (request : Request) (response : Response) : Response :=
  if response.body.length < Coding.threshold then response
  else
    let coding := Coding.negotiate request.headers
    let field := if coding = .identity then [] else [("content-encoding", coding.name)]
    { response with headers := response.headers ++ ("vary", "accept-encoding") :: field }

end Sealing.Http
