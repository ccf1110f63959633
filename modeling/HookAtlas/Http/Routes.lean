/-
# Answering requests

Each path takes one method.  A path with a slash too many or too few at its end leads to the right
one.  The query parameters of the listing are validated together, and the issues are reported in the
order of the parameters.
-/

import HookAtlas.Catalogue.Markdown
import HookAtlas.Http.Request
import HookAtlas.Http.Response
import HookAtlas.Site.Scan

namespace HookAtlas

inductive Route
  | health
  | listing
  | scan
  | stats
  | document
  | processQueue
deriving DecidableEq, Repr

namespace Route

def all : List Route :=
  [.listing, .scan, .stats, .document, .processQueue, .health]

def path : Route → Text
  | .health => "/health"
  | .listing => "/hooks"
  | .scan => "/hooks/scan"
  | .stats => "/hooks/stats"
  | .document => "/hooks/docs"
  | .processQueue => "/hooks/queue/process"

def method : Route → Text
  | .scan | .processQueue => "POST"
  | _ => "GET"

/-- A path without one line feed at its end, which no route minds. -/
def withoutFinalLineFeed (path : Text) : Text :=
  if path.getLast? = some ('\n' : CodePoint) then path.dropLast else path

def ofPath? (path : Text) : Option Route :=
  all.find? fun route => route.path = withoutFinalLineFeed path

/-- A path without the slashes at its end, or with one where it has none. -/
def otherSlash (path : Text) : Text :=
  if path.getLast? = some ('/' : CodePoint) then
    (path.reverse.dropWhile fun c : CodePoint => c = '/').reverse
  else path ++ Text.mark '/'

end Route

/-- Why a request fails inside: by whose error. -/
inductive RequestError
  | store (error : StoreError)
  | stats (error : StatsError)
  | clock (error : ClockError)
  | scan (error : ScanError)
  | drain (error : DrainError)

namespace HttpRequest

def readParameter {α : Type} (request : HttpRequest) (name : String) (default : α)
    (read : Text → Except IssueKind α) : Validated α :=
  match request.parameter? name with
  | none => .ok default
  | some value =>
    match read value with
    | .ok a => .ok a
    | .error kind => .error [⟨["query", name], kind⟩]

/-- Read a parameter that names a member of an enumeration.  Answers the name. -/
def readMember {α : Type} (ofName? : Text → Option α) (name : α → Text) (value : Text) :
    Except IssueKind (Option Text) :=
  match ofName? value with
  | some member => .ok (some (name member))
  | none => .error .enumMember

/-- The restrictions and the page that a request for the listing asks for. -/
def listingQuery (request : HttpRequest) : Validated (List FilterRequest × PageRequest) :=
  let build (query hookType source method : Option Text) (page perPage : Int) :
      List FilterRequest × PageRequest :=
    ([.search query, .column .hookType hookType, .column .sourceType source,
      .column .detectionMethod method], ⟨page, perPage⟩)
  Validated.value build
    |>.apply (request.readParameter "q" none fun value => .ok (some value))
    |>.apply (request.readParameter "type" none (readMember HookType.ofName? HookType.name))
    |>.apply (request.readParameter "source" none (readMember SourceType.ofName? SourceType.name))
    |>.apply
      (request.readParameter "method" none (readMember DetectionMethod.ofName? DetectionMethod.name))
    |>.apply (request.readParameter "page" 1 fun value => Validation.int (.text value))
    |>.apply
      (request.readParameter "per_page" PageRequest.defaultPerPage fun value =>
        Validation.int (.text value))

end HttpRequest

namespace Site

/-- An answer that leaves the site as it is. -/
def unchanged {ε : Type} (wrap : ε → RequestError) (site : Site) (answer : Except ε HttpResponse) :
    Option (Except RequestError HttpResponse × Site) :=
  match answer with
  | .ok response => some (.ok response, site)
  | .error error => some (.error (wrap error), site)

/-- Answer a request for a route.  No answer where dispatches are nested without end. -/
def answerRoute (route : Route) (request : HttpRequest) (site : Site) :
    Option (Except RequestError HttpResponse × Site) :=
  let store := site.world.cache.store
  match route with
  | .health => some (.ok .healthy, site)
  | .listing =>
    match request.listingQuery with
    | .error issues => some (.ok (.invalid issues), site)
    | .ok (requests, page) =>
      unchanged .store site ((store.listHooks requests page).map .page)
  | .stats => unchanged .stats site (store.stats.map .stats)
  | .document =>
    match site.world.now with
    | .error error => some (.error (.clock error), site)
    | .ok now => unchanged .store site ((store.markdown now).map .document)
  | .scan =>
    match scan site.world.settings.scan site with
    | none => none
    | some (.error error, site) => some (.error (.scan error), site)
    | some (.ok count, site) => some (.ok (.scanned count), site)
  | .processQueue =>
    let result := site.world.cache.drainOne site.world.clock
    let site := site.mapWorld (·.afterCache result)
    match result.value with
    | .error error => some (.error (.drain error), site)
    | .ok taken =>
      let (remaining, notices) := site.world.cache.pendingChunks
      some (.ok (.processed taken remaining), site.mapWorld (·.noteAll notices))

def answerRequest (request : HttpRequest) (site : Site) :
    Option (Except RequestError HttpResponse × Site) :=
  match Route.ofPath? request.path with
  | some route =>
    if route.method = request.method then answerRoute route request site
    else some (.ok .methodNotAllowed, site)
  | none =>
    if (Route.ofPath? (Route.otherSlash request.path)).isSome then some (.ok .redirect, site)
    else some (.ok .notFound, site)

end Site

end HookAtlas
