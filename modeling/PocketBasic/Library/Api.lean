import PocketBasic.Access.Admin
import PocketBasic.Library.Store
import PocketBasic.Text.Timestamp
import PocketBasic.Web.Request
import PocketBasic.Web.Response

/-!
# The library over the web

Programs can be listed and read by everyone, and saved and deleted by the administrator.
-/

namespace PocketBasic.Library

open Web (Request Response)

namespace Api

/-- A program without its text. -/
def summaryFields (i : Item) : Json.Fields :=
  [("id", .text (toString i.id)), ("name", .text i.name), ("description", .text i.description)]

def timeFields (i : Item) : Json.Fields :=
  [("created_at", .text (Text.timestamp i.created)),
    ("updated_at", .text (Text.timestamp i.updated))]

def summary (i : Item) : Json.Value := .object (summaryFields i ++ timeFields i)

/-- A program with its text, unless that is empty. -/
def whole (i : Item) : Json.Value :=
  .object (summaryFields i ++ (if i.source.isEmpty then [] else [("source", .text i.source)]) ++
    timeFields i)

def storeFailure (e : StoreError) : Response :=
  match e with
  | .invalidName _ => .failure 400 e.message
  | .notFound _ => .failure 404 e.message
  | _ => .failure 500 "internal error"

def compileFailure (f : Fault) : Response :=
  .json 422 (.object ([("success", .bool false), ("message", .text f.message)] ++
    (if f.category.isEmpty then [] else [("category", .text f.category)]) ++
    (if f.line = 0 then [] else [("line", Json.ofInt f.line)])))

def list (s : Store) : Response :=
  match s.list with
  | .ok items => .json 200 (.array (items.map summary))
  | .error _ => .failure 500 "could not list programs"

def get (s : Store) (name : String) : Response :=
  match s.get name with
  | .ok item => .json 200 (whole item)
  | .error e => storeFailure e

def maxUpload : Nat := 65536

/-- The characters at the front of a text that fit into so many bytes. -/
def takeBytes : Nat → List Char → List Char
  | _, [] => []
  | n, c :: cs => if c.utf8Size ≤ n then c :: takeBytes (n - c.utf8Size) cs else []

def draftFields : List String := ["name", "description", "source"]

/-- The program that an upload holds. It has no other fields, and null has none. -/
def draft? (body : String) : Option Draft :=
  match Json.parseFront? (String.ofList (takeBytes maxUpload body.toList)) with
  | some (.object fs) =>
    if fs.all fun f => draftFields.any (Json.sameName f.1) then do
      let name ← Json.fieldOr "" Json.Value.text? "name" fs
      let description ← Json.fieldOr "" Json.Value.text? "description" fs
      let source ← Json.fieldOr "" Json.Value.text? "source" fs
      pure ⟨name, description, source⟩
    else none
  | some .null => some ⟨"", "", ""⟩
  | _ => none

def save (s : Store) (body : String) (now : Int) : Store × Response :=
  match draft? body with
  | none => (s, .failure 400 "invalid request format")
  | some d => match s.save d now with
    | .ok (s', item) => (s', .json 201 (whole item))
    | .error (.compile f) => (s, compileFailure f)
    | .error e => (s, storeFailure e)

def delete (s : Store) (name : String) : Store × Response :=
  match s.delete name with
  | .ok s' => (s', .empty 204)
  | .error e => (s, storeFailure e)

def asAdmin (a : Access.Administrator) (r : Request) (s : Store) (action : Store × Response) :
    Store × Response :=
  match a.denial? r with
  | some denial => (s, denial)
  | none => action

def collection (a : Access.Administrator) (s : Store) (r : Request) (now : Int) : Store × Response :=
  if r.method = "GET" then (s, list s)
  else if r.method = "POST" then asAdmin a r s (save s r.body now)
  else (s, .failure 405 "method not allowed")

def item (a : Access.Administrator) (s : Store) (r : Request) (name : String) : Store × Response :=
  if r.method = "GET" then (s, get s name)
  else if r.method = "DELETE" then asAdmin a r s (delete s name)
  else (s, .failure 405 "method not allowed")

end Api

end PocketBasic.Library
