import ShapedJson.Service.Extraction
import ShapedJson.Service.Target

/-!
# Routes

Three routes: a greeting, the state of the service, and extraction.  Each has
one path and one method; a line feed at the end of a path does not count.  A path
that differs from that of a route by slashes at its end only is redirected.
-/

namespace ShapedJson

/-- The routes of the service. -/
inductive Route where
  | greeting
  | health
  | extraction
  deriving DecidableEq, Repr

namespace Route

/-- All routes. -/
def all : List Route := [.greeting, .health, .extraction]

/-- The path of a route. -/
def path : Route → Text
  | .greeting => text "/"
  | .health => text "/health"
  | .extraction => text "/api/json"

/-- The method of a route. -/
def method : Route → Text
  | .greeting | .health => text "GET"
  | .extraction => text "POST"

/-- The route of a path. -/
def ofPath? (path : Text) : Option Route :=
  all.find? fun r => path == r.path || path == r.path ++ text "\n"

/-- The path with a slash at its end, or without those that it has. -/
def otherPath (path : Text) : Text :=
  if path.getLast? = some '/' then Text.trimEndOf (· == '/') path else path ++ text "/"

end Route

namespace Service

variable {σ : Type}

/-- The version of the service. -/
def version : Text := text "0.1.0"

/-- The state of the service as a value. -/
def health (s : Service σ) : Json :=
  .object
    [(text "status", .string (text "healthy")), (text "version", .string version),
      (text "model", .string s.settings.model)]

/-- The answer of a route. -/
def answerRoute (s : Service σ) (route : Route) (request : Request) (state : σ) : Answered σ :=
  match route with
  | .greeting => ⟨.ok (.plain 200 (text "Hello, world!")), [], state⟩
  | .health => ⟨Response.ofJson 200 s.health, [], state⟩
  | .extraction =>
    match request.payload with
    | .error fault => ⟨Response.ofPayloadFault fault, [], state⟩
    | .ok payload => s.extract payload state

/-- The answer to a request, its body included. -/
def answerFully (s : Service σ) (request : Request) (state : σ) : Answered σ :=
  let path := Target.path request.target
  match Route.ofPath? path with
  | some route =>
    if request.verb = route.method then s.answerRoute route request state
    else ⟨Response.wrongMethod, [], state⟩
  | none =>
    match Route.ofPath? (Route.otherPath path) with
    | some _ => ⟨.ok .redirect, [], state⟩
    | none => ⟨Response.notFound, [], state⟩

/-- The answer to a request.  One that asks for the head alone gets no body. -/
def answer (s : Service σ) (request : Request) (state : σ) : Answered σ :=
  let answered := s.answerFully request state
  if request.verb = text "HEAD" then
    { answered with outcome := answered.outcome.map Response.withoutBody }
  else answered

end Service

end ShapedJson
