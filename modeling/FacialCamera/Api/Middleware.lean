import FacialCamera.Backend.Api
import FacialCamera.Core.Url

/-! # The key check in front of the routes

`ApiKeyMiddleware` lets a request through with the key, on a public path, or with
the method OPTIONS. The path it looks at is that of `request.url`, which is put together
from the Host header and the path that is routed, so a Host header that itself names a
public path opens every route. FastAPI and its CORS middleware are outside the repository
and come in as a parameter.
-/

namespace FacialCamera.Api

open FacialCamera.Core Backend

def API_KEY : String := "facialcam-2026-expo-key"

def PUBLIC_PATHS : List String := ["/health", "/docs", "/openapi.json", "/camera/stream"]

structure HttpRequest where
  method : String
  path : String
  query : String
  headers : List (String × String)
  body : List UInt8
  deriving DecidableEq

inductive Content where
  | body (body : Body)
  | raw (data : List UInt8)
  deriving DecidableEq

structure Response where
  status : Nat
  headers : List (String × String)
  content : Content
  deriving DecidableEq

/-! ## Routing -/

def segments (path : String) : List (List Char) := path.toList.splitOn '/'

/-- A segment in braces takes any text that is not empty. -/
def segmentsMatch : List (List Char) → List (List Char) → Bool
  | [], [] => true
  | t :: template, s :: path =>
      (if t.head? = some '{' then !s.isEmpty else t = s) && segmentsMatch template path
  | _, _ => false

def Serves (route : Route) (method path : String) : Prop :=
  route.method = method ∧ segmentsMatch (segments route.path) (segments path) = true

instance (route : Route) (method path : String) : Decidable (Serves route method path) :=
  inferInstanceAs (Decidable (_ ∧ _))

/-- What the server does around the handlers: the authority of a request without a Host header,
the authorities that `urlsplit` raises on, `request.url.path` with none where it does, the
header lookup, the preflights that `CORSMiddleware` answers and the headers it adds, the choice
of the route, the arguments it parses or its validation error, and its own answer where no
route fits. -/
structure Framework where
  server : String
  refuses : List Char → Bool
  urlPath : HttpRequest → Option String
  header : HttpRequest → String → Option String
  preflight : HttpRequest → Option Response
  addCors : HttpRequest → Response → Response
  routed : HttpRequest → Option Route
  arguments : HttpRequest → (route : Route) → Except Response {a : ApiRequest // a.route = route}
  unrouted : HttpRequest → Response

def HttpRequest.find (request : HttpRequest) (name : String) : Option String :=
  (request.headers.find? fun field => field.1.toLower = name.toLower).map Prod.snd

def HttpRequest.host (request : HttpRequest) : Option String := request.find "Host"

/-- `request.url` from the authority on. -/
def Framework.url (lib : Framework) (request : HttpRequest) : List Char :=
  (request.host.getD lib.server).toList ++ (request.path.toList ++
    if request.query = "" then [] else '?' :: request.query.toList)

def isHostChar (c : Char) : Bool := c.isAlphanum || c = '.' || c = ':' || c = '-'

def Plain (host : String) : Prop := ∀ c ∈ host.toList, isHostChar c = true

instance (host : String) : Decidable (Plain host) :=
  decidable_of_iff (host.toList.all isHostChar = true) List.all_eq_true

/-- The path of the URL is that of its text, a header is found whatever its letter case, only
preflights are answered by `CORSMiddleware`, and a chosen route serves the request. -/
structure Framework.Documented (lib : Framework) : Prop where
  urlPath : ∀ request, lib.urlPath request =
    if lib.refuses (Url.netloc (lib.url request)) then none
    else some (String.ofList (Url.path (lib.url request)))
  server : Plain lib.server
  accepts : ∀ host, Plain host → lib.refuses host.toList = false
  header : ∀ request name, lib.header request name = request.find name
  preflight : ∀ request, request.method ≠ "OPTIONS" → lib.preflight request = none
  routed : ∀ request route, lib.routed request = some route →
    Serves route request.method request.path

/-- `CORSMiddleware` adds headers only. -/
structure Framework.KeepsAnswers (lib : Framework) : Prop where
  status : ∀ request response, (lib.addCors request response).status = response.status
  content : ∀ request response, (lib.addCors request response).content = response.content

/-! ## The application -/

def serverError : Response := ⟨500, [], .raw (bytes "Internal Server Error")⟩

def respond (seen : Surroundings) (a : ApiRequest) (b : Process) : Response × Process :=
  match (a.handler seen).run exec b with
  | (some (.ok body), b') => (⟨200, [], .body body⟩, b')
  | (some (.error e), b') => (⟨e.status, [], .body (.detail e.detail)⟩, b')
  | (none, b') => (serverError, b')

theorem respond_snd (seen : Surroundings) (a : ApiRequest) (b : Process) :
    (respond seen a b).2 = ((a.handler seen).run exec b).2 := by
  unfold respond
  rcases (a.handler seen).run exec b with ⟨_ | ⟨_ | _⟩, _⟩ <;> rfl

def callNext (lib : Framework) (seen : Surroundings) (request : HttpRequest) (b : Process) :
    Response × Process :=
  match lib.routed request with
  | none => (lib.unrouted request, b)
  | some route =>
      match lib.arguments request route with
      | .error response => (response, b)
      | .ok a => respond seen a.1 b

/-- The handler that `call_next` ends in, with its arguments. -/
def called (lib : Framework) (request : HttpRequest) : Option ApiRequest :=
  (lib.routed request).bind fun route => (lib.arguments request route).toOption.map Subtype.val

/-- `ApiKeyMiddleware.dispatch`. -/
def dispatch (lib : Framework) (seen : Surroundings) (request : HttpRequest) (b : Process) :
    Response × Process :=
  match lib.urlPath request with
  | none => (serverError, b)
  | some path =>
      if path ∈ PUBLIC_PATHS ∨ request.method = "OPTIONS" then callNext lib seen request b
      else if lib.header request "X-API-Key" ≠ some API_KEY then
        (⟨403, [], .body (.detail "Invalid or missing API key")⟩, b)
      else callNext lib seen request b

/-- The application; `CORSMiddleware` is added last and so comes first. -/
def app (lib : Framework) (seen : Surroundings) (request : HttpRequest) (b : Process) :
    Response × Process :=
  match lib.preflight request with
  | some response => (response, b)
  | none =>
      let (response, b') := dispatch lib seen request b
      (lib.addCors request response, b')

/-! ## The path that is looked at -/

/-- The Host header has a public path in it, with its end. -/
structure Exempting (lib : Framework) (host : String) : Prop where
  closed : Url.Closed host.toList
  path : String.ofList (Url.path host.toList) ∈ PUBLIC_PATHS
  accepted : lib.refuses (Url.netloc host.toList) = false

/-- What stands behind the first slash of a route. -/
def firstSegment (a : ApiRequest) : List Char := (segments a.route.path).getD 1 []

theorem segments_route (a : ApiRequest) :
    segments a.route.path = [] :: firstSegment a :: (segments a.route.path).drop 2 := by
  cases a <;> simp only [firstSegment, ApiRequest.route] <;> decide +kernel

/-- The first segments are plain texts. -/
theorem firstSegment_plain (a : ApiRequest) :
    ∀ c ∈ firstSegment a, c ≠ '/' ∧ c ≠ '{' ∧ Url.removed c = false ∧ Url.endsPath c = false := by
  have hall : (firstSegment a).all (fun c => decide (c ≠ '/' ∧ c ≠ '{' ∧
      Url.removed c = false ∧ Url.endsPath c = false)) = true := by
    cases a <;> simp only [firstSegment, ApiRequest.route] <;> decide +kernel
  exact fun c hc => of_decide_eq_true (List.all_eq_true.mp hall c hc)

/-- Two routes begin with a segment of a public path. -/
theorem public_of_firstSegment {a : ApiRequest}
    (h : firstSegment a ∈ PUBLIC_PATHS.flatMap segments) : a = .health ∨ a = .cameraStream := by
  cases a with
  | health => exact Or.inl rfl
  | cameraStream => exact Or.inr rfl
  | _ =>
      simp only [firstSegment, ApiRequest.route] at h
      exact absurd h (by decide +kernel)

/-- A path that is served begins with the first segment of its route. -/
theorem path_of_serves {a : ApiRequest} {method path : String} (h : Serves a.route method path) :
    ∃ rest, path.toList = '/' :: (firstSegment a ++ rest) ∧
      (rest = [] ∨ ∃ more, rest = '/' :: more) := by
  have hmatch := h.2
  have hfirst : (firstSegment a).head? ≠ some '{' := by
    intro hhead
    exact (firstSegment_plain a '{' (List.mem_of_head? hhead)).2.1 rfl
  rw [segments_route a] at hmatch
  have hpath : ['/'].intercalate (segments path) = path.toList := List.intercalate_splitOn _
  rcases hsegments : segments path with _ | ⟨empty, _ | ⟨first, more⟩⟩
  · rw [hsegments] at hmatch
    cases hmatch
  · simp [hsegments, segmentsMatch] at hmatch
  · simp only [hsegments, segmentsMatch, List.head?_nil, reduceCtorEq, if_false, if_neg hfirst,
      Bool.and_eq_true, decide_eq_true_eq] at hmatch
    obtain ⟨rfl, rfl, _⟩ := hmatch
    rw [hsegments] at hpath
    cases more with
    | nil => exact ⟨[], by simpa [List.intercalate] using hpath.symm, Or.inl rfl⟩
    | cons segment more =>
        refine ⟨'/' :: ['/'].intercalate (segment :: more), ?_, Or.inr ⟨_, rfl⟩⟩
        rw [← hpath]
        simp [List.intercalate]

/-- What is taken for the path of a request whose URL has nothing in front of it. -/
theorem upToQuery_of_serves {a : ApiRequest} {method path : String}
    (h : Serves a.route method path) :
    ∃ rest, Url.upToQuery (Url.kept path.toList) = '/' :: (firstSegment a ++ rest) ∧
      (rest = [] ∨ ∃ more, rest = '/' :: more) := by
  obtain ⟨rest, hpath, hrest⟩ := path_of_serves h
  have hkept : Url.kept (firstSegment a) = firstSegment a := List.filter_eq_self.mpr fun c hc => by
    simp [(firstSegment_plain a c hc).2.2.1]
  have hall : ∀ c ∈ firstSegment a, (!Url.endsPath c) = true := fun c hc => by
    simp [(firstSegment_plain a c hc).2.2.2]
  refine ⟨Url.upToQuery (Url.kept rest), ?_, ?_⟩
  · rw [hpath, ← List.singleton_append, Url.kept_append, Url.kept_append, hkept]
    show '/' :: Url.upToQuery (firstSegment a ++ Url.kept rest) = _
    rw [Url.upToQuery, List.takeWhile_append_of_pos hall, Url.upToQuery]
  · rcases hrest with rfl | ⟨more, rfl⟩
    · exact Or.inl rfl
    · exact Or.inr ⟨Url.upToQuery (Url.kept more), by
        simp [Url.upToQuery, Url.kept, Url.removed, Url.endsPath]⟩

/-- Nothing of a path that is served is an authority. -/
theorem path_of_slash {a : ApiRequest} {method path : String} (h : Serves a.route method path) :
    Url.path path.toList = Url.upToQuery (Url.kept path.toList) := by
  obtain ⟨rest, hpath, _⟩ := path_of_serves h
  rw [Url.path, hpath, Url.tail_slash]
  rfl

/-- A path with the first segment of a route behind a slash is no public one, but for two routes. -/
theorem public_of_suffix {a : ApiRequest} (front : List Char) {rest : List Char}
    (hpublic : String.ofList (front ++ '/' :: (firstSegment a ++ rest)) ∈ PUBLIC_PATHS)
    (hrest : rest = [] ∨ ∃ more, rest = '/' :: more) : a = .health ∨ a = .cameraStream := by
  refine public_of_firstSegment (List.mem_flatMap.mpr ⟨_, hpublic, ?_⟩)
  have hplain : '/' ∉ firstSegment a := fun hc => (firstSegment_plain a '/' hc).1 rfl
  rw [segments, String.toList_ofList, List.splitOn_append_cons_self]
  refine List.mem_append_right _ ?_
  rcases hrest with rfl | ⟨more, rfl⟩
  · rw [List.append_nil, List.splitOn_eq_singleton hplain]
    exact List.mem_singleton_self _
  · rw [List.splitOn_append_cons_self_of_not_mem hplain]
    exact List.mem_cons_self ..

/-- No handler is registered for OPTIONS. -/
theorem method_ne_options (a : ApiRequest) : a.route.method ≠ "OPTIONS" := by
  cases a <;> simp [ApiRequest.route]

/-- The state is left as it is, and the response shows the clock and the current frame at
most. -/
structure Harmless (handled : Surroundings → Process → Response × Process) : Prop where
  unchanged : ∀ seen b, (handled seen b).2 = b
  blind : ∀ seen seen' b b', b.clock = b'.clock → seen.sight.jpeg = seen'.sight.jpeg →
    (handled seen b).1 = (handled seen' b').1

theorem Harmless.const (response : Response) : Harmless fun _ b => (response, b) :=
  ⟨fun _ _ => rfl, fun _ _ _ _ _ _ => rfl⟩

theorem harmless_health : Harmless fun seen b => respond seen .health b := by
  refine ⟨fun _ _ => rfl, fun seen seen' b b' hclock _ => ?_⟩
  show (⟨200, [], .body (.ok b.clock)⟩ : Response) = ⟨200, [], .body (.ok b'.clock)⟩
  rw [hclock]

theorem harmless_cameraStream : Harmless fun seen b => respond seen .cameraStream b := by
  refine ⟨fun _ _ => rfl, fun seen seen' b b' _ hjpeg => ?_⟩
  show (⟨200, [], .body (.stream (mjpegPart seen.sight.jpeg))⟩ : Response) =
    ⟨200, [], .body (.stream (mjpegPart seen'.sight.jpeg))⟩
  rw [hjpeg]

variable {lib : Framework} {request : HttpRequest}

theorem host_plain {host : String} (h : Plain host) :
    Url.tail host.toList = [] ∧ Url.netloc host.toList = host.toList := by
  have hkept : Url.kept host.toList = host.toList := List.filter_eq_self.mpr fun c hc => by
    have hchar := h c hc
    by_contra hremoved
    simp only [Url.removed, Bool.not_eq_true, Bool.not_eq_false', Bool.or_eq_true,
      decide_eq_true_eq] at hremoved
    rcases hremoved with (rfl | rfl) | rfl <;> cases hchar
  have hall : ∀ c ∈ host.toList, (!Url.endsNetloc c) = true := by
    intro c hc
    have hchar := h c hc
    by_contra hends
    simp only [Url.endsNetloc, Url.endsPath, Bool.not_eq_true, Bool.not_eq_false',
      Bool.or_eq_true, decide_eq_true_eq] at hends
    rcases hends with rfl | rfl | rfl <;> cases hchar
  rw [Url.tail, Url.netloc, hkept]
  exact ⟨List.dropWhile_eq_nil_iff.mpr hall, List.takeWhile_eq_self_iff.mpr hall⟩

/-- What the server puts before the path, where there is no Host header, is an authority. -/
theorem path_url (lib : Framework) (request : HttpRequest) :
    Url.path (lib.url request) =
      Url.path ((request.host.getD lib.server).toList ++ request.path.toList) := by
  unfold Framework.url
  by_cases hquery : request.query = ""
  · rw [if_pos hquery, List.append_nil]
  · rw [if_neg hquery, ← List.append_assoc, Url.path_append_query]

/-- Where the path of the URL is a public one, the request is for one of two handlers, or its
Host header exempts it. -/
theorem reached_of_public (hlib : lib.Documented) {a : ApiRequest} {path : String}
    (hurl : lib.urlPath request = some path) (hpublic : path ∈ PUBLIC_PATHS)
    (hserves : Serves a.route request.method request.path) :
    (a = .health ∨ a = .cameraStream) ∨ ∃ host, request.host = some host ∧ Exempting lib host := by
  rw [hlib.urlPath, Option.ite_none_left_eq_some] at hurl
  obtain ⟨haccepted, hpath⟩ := hurl
  rw [← Option.some.inj hpath, path_url] at hpublic
  obtain ⟨rest, hkept, hrest⟩ := upToQuery_of_serves hserves
  by_cases htail : Url.tail (request.host.getD lib.server).toList = []
  · rw [Url.path_append_of_netloc htail, path_of_slash hserves, hkept] at hpublic
    exact Or.inl (public_of_suffix [] hpublic hrest)
  by_cases hclosed : Url.Closed (request.host.getD lib.server).toList
  · rw [Url.path_append_of_closed hclosed] at hpublic
    rw [Framework.url, Url.netloc_append htail] at haccepted
    cases hhost : request.host with
    | none =>
        rw [hhost] at htail
        exact absurd (host_plain hlib.server).1 htail
    | some host =>
        rw [hhost] at hclosed hpublic haccepted
        exact Or.inr ⟨host, rfl, hclosed, hpublic, by simpa using haccepted⟩
  · rw [Url.path_append_of_open hclosed htail, hkept] at hpublic
    exact Or.inl (public_of_suffix _ hpublic hrest)

/-- The request passes without a look at its key. -/
def Exempt (lib : Framework) (request : HttpRequest) : Prop :=
  ∃ path, lib.urlPath request = some path ∧ (path ∈ PUBLIC_PATHS ∨ request.method = "OPTIONS")

instance (lib : Framework) (request : HttpRequest) : Decidable (Exempt lib request) :=
  match h : lib.urlPath request with
  | none => .isFalse (by simp [Exempt, h])
  | some path => decidable_of_iff (path ∈ PUBLIC_PATHS ∨ request.method = "OPTIONS")
      (by simp [Exempt, h])

/-- A request that passes so reaches one of two handlers, unless its Host header exempts it. -/
theorem reached_of_exempt (hlib : lib.Documented) (hexempt : Exempt lib request) {a : ApiRequest}
    (hroute : lib.routed request = some a.route) :
    (a = .health ∨ a = .cameraStream) ∨ ∃ host, request.host = some host ∧ Exempting lib host := by
  have hserves := hlib.routed request _ hroute
  obtain ⟨path, hurl, hpublic | hoptions⟩ := hexempt
  · exact reached_of_public hlib hurl hpublic hserves
  · exact absurd (hserves.1.trans hoptions) (method_ne_options a)

theorem dispatch_exempt (hexempt : Exempt lib request) (seen : Surroundings) (b : Process) :
    dispatch lib seen request b = callNext lib seen request b := by
  obtain ⟨path, hurl, hpasses⟩ := hexempt
  rw [dispatch, hurl]
  exact if_pos hpasses

/-- A request that is looked at is answered without a handler, or has the key. -/
theorem dispatch_checked (hexempt : ¬ Exempt lib request)
    (hkey : lib.header request "X-API-Key" ≠ some API_KEY) :
    ∃ response, ∀ seen b, dispatch lib seen request b = (response, b) := by
  cases hurl : lib.urlPath request with
  | none => exact ⟨serverError, fun seen b => by rw [dispatch, hurl]⟩
  | some path =>
      have hchecked : ¬ (path ∈ PUBLIC_PATHS ∨ request.method = "OPTIONS") := fun h =>
        hexempt ⟨path, hurl, h⟩
      refine ⟨⟨403, [], .body (.detail "Invalid or missing API key")⟩, fun seen b => ?_⟩
      simp only [dispatch, hurl, if_neg hchecked, if_pos hkey]

theorem route_of_called {a : ApiRequest} (h : called lib request = some a) :
    lib.routed request = some a.route := by
  obtain ⟨route, hroute, hargs⟩ := Option.bind_eq_some_iff.mp h
  obtain ⟨⟨a, rfl⟩, _, rfl⟩ := Option.map_eq_some_iff.mp hargs
  exact hroute

theorem callNext_called {a : ApiRequest} (h : called lib request = some a) (seen : Surroundings)
    (b : Process) : callNext lib seen request b = respond seen a b := by
  obtain ⟨route, hroute, hargs⟩ := Option.bind_eq_some_iff.mp h
  obtain ⟨⟨a, rfl⟩, hparsed, rfl⟩ := Option.map_eq_some_iff.mp hargs
  rw [callNext, hroute]
  cases hresult : lib.arguments request a.route with
  | error response =>
      rw [hresult] at hparsed
      cases hparsed
  | ok a' =>
      rw [hresult] at hparsed
      cases hparsed
      dsimp only
      rw [hresult]

/-- Where no handler is called, the answer is the framework's own. -/
theorem callNext_not_called (h : called lib request = none) :
    ∃ response, ∀ seen b, callNext lib seen request b = (response, b) := by
  unfold callNext
  cases hroute : lib.routed request with
  | none => exact ⟨lib.unrouted request, fun _ _ => rfl⟩
  | some route =>
      cases hargs : lib.arguments request route with
      | error response => exact ⟨response, fun _ _ => by simp [hargs]⟩
      | ok a => simp [called, hroute, hargs, Except.toOption] at h

/-- What is passed on without a look at its key is as harmless as its handler. -/
theorem harmless_app_of_called
    (hcalled : Exempt lib request → ∀ a, called lib request = some a →
      Harmless fun seen b => respond seen a b)
    (hkey : lib.header request "X-API-Key" ≠ some API_KEY) :
    Harmless fun seen b => app lib seen request b := by
  have hdispatch : Harmless fun seen b => dispatch lib seen request b := by
    by_cases hexempt : Exempt lib request
    · simp only [dispatch_exempt hexempt]
      cases ha : called lib request with
      | none =>
          obtain ⟨response, hanswer⟩ := callNext_not_called ha
          simpa only [hanswer] using Harmless.const response
      | some a => simpa only [callNext_called ha] using hcalled hexempt a ha
    · obtain ⟨response, hchecked⟩ := dispatch_checked hexempt hkey
      simpa only [hchecked] using Harmless.const response
  unfold app
  cases lib.preflight request with
  | some response => exact .const response
  | none =>
      refine ⟨fun seen b => hdispatch.unchanged seen b, fun seen seen' b b' hclock hjpeg => ?_⟩
      exact congrArg (lib.addCors request) (hdispatch.blind seen seen' b b' hclock hjpeg)

/-- Without the key a request changes nothing and learns nothing, unless its Host header exempts
it. -/
theorem harmless_app (hlib : lib.Documented)
    (hkey : lib.header request "X-API-Key" ≠ some API_KEY)
    (hhost : ∀ host, request.host = some host → ¬ Exempting lib host) :
    Harmless fun seen b => app lib seen request b := by
  refine harmless_app_of_called (fun hexempt a hcalled => ?_) hkey
  rcases reached_of_exempt hlib hexempt (route_of_called hcalled) with
    (rfl | rfl) | ⟨host, hsome, hexempting⟩
  · exact harmless_health
  · exact harmless_cameraStream
  · exact absurd hexempting (hhost host hsome)

end FacialCamera.Api
