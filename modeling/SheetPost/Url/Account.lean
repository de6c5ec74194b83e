/-
The account in the text of a URL, as a driver that is given the text takes it: user name and password are what stands
before the last `@` of the authority, with their escapes resolved.
-/
import SheetPost.Text.Search
import SheetPost.Url.Basic

namespace SheetPost.Url

open SheetPost.Text

/-- the authority: what stands behind `://` up to a path, a query or a fragment -/
def authority? (s : List Char) : Option (List Char) :=
  (cutAtText "://".toList s).map fun (_, r) => r.takeWhile fun c => !endsAuthority false c

/-- the bytes of the user name and of the password; without a colon there is no password -/
def account? (s : List Char) : Option (List UInt8 × List UInt8) :=
  match (authority? s).bind (cutAtLast '@') with
  | none => none
  | some (info, _) =>
    match cutAt ':' info with
    | some (name, password) => some (Percent.decode name, Percent.decode password)
    | none => some (Percent.decode info, [])

end SheetPost.Url
