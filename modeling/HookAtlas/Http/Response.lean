/-
# Responses

What a request is answered with, by meaning, and how each answer is written: a status, a content type
and a body.
-/

import HookAtlas.Catalogue.Listing

namespace HookAtlas

inductive HttpBody
  | json (value : Json)
  | text (value : Text)
  | issues (issues : List Issue)

/-- What a request is answered with.  A scan answers how many records it handled, a tick whether it took a chunk
and how many chunks remain, and `redirect` a path that is right but for a slash at its end. -/
inductive HttpResponse
  | healthy
  | page (page : HookPage)
  | stats (stats : HookStats)
  | document (text : Text)
  | scanned (count : Nat)
  | processed (taken : Bool) (remaining : Nat)
  | notFound
  | methodNotAllowed
  | redirect
  | invalid (issues : List Issue)

namespace HookPage

def toJson (page : HookPage) : Json :=
  .object
    [("total", .int (Int.ofNat page.total)), ("page", .int page.page),
      ("perPage", .int page.perPage), ("items", .list (page.items.map HookEntry.toJson))]

end HookPage

namespace HookStats

def countsJson (counts : List (Text × Nat)) : Json :=
  .object (counts.map fun (name, count) => (name, .int (Int.ofNat count)))

def toJson (stats : HookStats) : Json :=
  .object
    [("total", .int (Int.ofNat stats.total)), ("by_type", countsJson stats.byType),
      ("by_source", countsJson stats.bySource), ("last_scan", .int stats.lastScan)]

end HookStats

namespace HttpResponse

def status : HttpResponse → Nat
  | .notFound => 404
  | .methodNotAllowed => 405
  | .redirect => 307
  | .invalid _ => 422
  | _ => 200

def contentType : HttpResponse → Text
  | .document _ => "text/markdown; charset=utf-8"
  | .redirect => []
  | _ => "application/json"

/-- A body with a detail in words. -/
def detail (words : String) : HttpBody :=
  .json (.object [("detail", .text words)])

def body : HttpResponse → HttpBody
  | .healthy => .json (.object [("status", .text "ok")])
  | .page shown => .json shown.toJson
  | .stats counts => .json counts.toJson
  | .document content => .text content
  | .scanned count => .json (.object [("scanned", .int (Int.ofNat count))])
  | .processed taken remaining =>
    .json (.object [("processed", .bool taken), ("remaining", .int (Int.ofNat remaining))])
  | .notFound => detail "Not Found"
  | .methodNotAllowed => detail "Method Not Allowed"
  | .redirect => .text []
  | .invalid found => .issues found

end HttpResponse

end HookAtlas
