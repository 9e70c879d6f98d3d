/-!
# Request targets

The target of a request is an absolute path, a whole address with scheme and authority, an
authority alone, or an asterisk. The service looks at its path, which is taken as it stands: no
escape is decoded and no segment is resolved.
-/

namespace Sealing.Http.Target

/-- Whether a character ends a path. -/
def endsPath (c : Char) : Bool := c = '?' || c = '#'

/-- Whether a character ends an authority. -/
def endsAuthority (c : Char) : Bool := c = '/' || endsPath c

/-- What follows the first `://`, if there is one. -/
def afterScheme? : List Char → Option (List Char)
  | ':' :: '/' :: '/' :: rest => some rest
  | _ :: rest => afterScheme? rest
  | [] => none

/-- The path of a target, as characters. An address without a path has the path `/`, and an
authority alone has none. -/
def pathOf (target : List Char) : List Char :=
  match target with
  | '/' :: _ => target.takeWhile (!endsPath ·)
  | ['*'] => ['*']
  | _ =>
    match afterScheme? target with
    | none => []
    | some rest =>
      match (rest.dropWhile (!endsAuthority ·)).takeWhile (!endsPath ·) with
      | [] => ['/']
      | path => path

/-- The path of a target. -/
def path (target : String) : String := String.ofList (pathOf target.toList)

end Sealing.Http.Target
