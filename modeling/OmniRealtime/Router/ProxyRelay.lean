import OmniRealtime.Lib.Dict
import OmniRealtime.Lib.Proc
import OmniRealtime.Router.VoiceRouting

/-!
# One proxied request

`ProxyHandler.forward_model_request` of `proxy.py` and the response it returns, for one
request: admission, reading and routing the body, the exchange with the worker, and the
relay of its response, streamed or buffered for a voice mutation. What a mutation does to
the voice registry is in `VoiceRouting`; it changes no counter.

How each call and each `await` of the request ends is a field of `ProxyRequest` or
`Upstream`: it returns or raises, cancellation included. The log has the changes the
request makes to the shared counters.
-/

namespace OmniRealtime

/-- The exceptions the handlers tell apart. -/
inductive PyExn
  | cancelled
  | poolTimeout
  | httpError
  | payloadTooLarge
  | routeMetadata
  | noEligibleWorker
  | unicodeEncode
  | valueError
  | otherException
  | otherBase
  deriving DecidableEq, Repr

namespace PyExn

/-- `httpx.HTTPError`, of which `PoolTimeout` is a subclass. -/
def isHttpError : PyExn → Bool
  | .poolTimeout | .httpError => true
  | _ => false

def isException : PyExn → Bool
  | .cancelled | .otherBase => false
  | _ => true

def isValueError : PyExn → Bool
  | .payloadTooLarge | .routeMetadata | .unicodeEncode | .valueError => true
  | _ => false

end PyExn

/-- A header text, as code points: a `str` of Python may hold a lone surrogate. -/
abbrev HeaderText := List Nat

/-- The text of a literal. -/
def headerText (s : String) : HeaderText := s.toList.map Char.toNat

/-- `s.encode("latin-1")` succeeds. -/
def IsLatin1 (s : HeaderText) : Prop := ∀ c ∈ s, c < 256

instance (s : HeaderText) : Decidable (IsLatin1 s) :=
  inferInstanceAs (Decidable (∀ c ∈ s, c < 256))

/-- The response of the worker: `aread`, `aclose`, `committed` and `streamEnd` say how these
    calls end, `chunkSends` how the client takes each chunk, `startSend`, `eventSend` and
    `endSend` the other messages. -/
structure Upstream where
  statusCode : Nat
  headers : List (String × HeaderText)
  aread : Option PyExn
  committed : Option PyExn
  aclose : Option PyExn
  startSend : Option PyExn
  chunkSends : List (Option PyExn)
  streamEnd : Option PyExn
  eventSend : Option PyExn
  endSend : Option PyExn

/-- A request, and how the calls up to the worker's response end. `mutation` is what
    `_voice_mutation_request` returns, `none` too without voice routing. -/
structure ProxyRequest where
  admitted : Bool
  bodyLimit : Nat
  contentLength : Option (Option Int)
  chunks : List Nat
  bodyEnd : Option PyExn
  metadata : Option PyExn
  largeRequestError : Bool
  mutation : Option VoiceMutationRequest
  selection : Option PyExn
  workerId : HeaderText
  requestId : HeaderText
  stream : Bool
  buildRequest : Option PyExn
  send : Except PyExn Upstream

/-- What a request does to the shared counters. -/
inductive CounterOp
  | acquire
  | release
  | increment
  | decrement
  deriving DecidableEq, Repr

/-- `_ReleaseOnce._is_released`, `_RelayCleanup._is_done`, and the log. -/
structure RelayState where
  released : Bool := false
  cleaned : Bool := false
  log : List CounterOp := []
  deriving DecidableEq, Repr

inductive ProxyResponse
  | plain
  | relay (upstream : Upstream)

abbrev RelayTask (α : Type) := Proc RelayState PyExn α

namespace ProxyRelay

open Proc

def emit (op : CounterOp) : RelayTask Unit := modify fun s => { s with log := s.log ++ [op] }

/-! ## Releases -/

/-- `_ReleaseOnce.__call__`. -/
def release : RelayTask Unit :=
  modify fun s =>
    if s.released then s else { s with released := true, log := s.log ++ [.release] }

/-- `_RelayCleanup.__call__`. -/
def cleanup (u : Upstream) : RelayTask Unit := fun s =>
  if s.cleaned then ret () s
  else
    ensure (await u.aclose) (andThen (emit .decrement) fun _ => release)
      { s with cleaned := true }

/-! ## Headers -/

def hopByHopHeaders : List String :=
  ["connection", "keep-alive", "proxy-authenticate", "proxy-authorization",
    "proxy-connection", "te", "trailer", "trailers", "transfer-encoding", "upgrade"]

def responseHeadersToStrip : List String := hopByHopHeaders ++ ["content-length", "date", "server"]

def bufferedResponseHeadersToStrip : List String := responseHeadersToStrip ++ ["content-encoding"]

def filterResponseHeaders (headers : List (String × HeaderText)) (buffered : Bool) :
    Dict String HeaderText :=
  headers.filter fun header => header.1.toLower ∉
    if buffered then bufferedResponseHeadersToStrip else responseHeadersToStrip

def diagnosticHeaders (q : ProxyRequest) : Dict String HeaderText :=
  [("X-SGLang-Omni-Worker", q.workerId), ("X-SGLang-Omni-Request-ID", q.requestId),
    ("X-SGLang-Omni-Route-Attempt", headerText "1")]

/-- `headers.update(diagnostics)`. -/
def updateHeaders (headers diagnostics : Dict String HeaderText) : Dict String HeaderText :=
  diagnostics.foldl (fun d header => d.set header.1 header.2) headers

/-- `Response.init_headers` encodes every name and value. -/
def Encodable (headers : Dict String HeaderText) : Prop :=
  ∀ header ∈ headers, IsLatin1 (headerText header.1) ∧ IsLatin1 header.2

instance (headers : Dict String HeaderText) : Decidable (Encodable headers) :=
  inferInstanceAs (Decidable (∀ header ∈ headers, _ ∧ _))

def initHeaders (headers : Dict String HeaderText) : RelayTask Unit :=
  if Encodable headers then ret () else raise .unicodeEncode

def relayHeaders (q : ProxyRequest) (u : Upstream) : Dict String HeaderText :=
  updateHeaders (filterResponseHeaders u.headers (!q.stream)) (diagnosticHeaders q)

/-! ## The streamed relay -/

/-- `(upstream.headers.get("content-type") or "").startswith("text/event-stream")`. -/
def isEventStream (u : Upstream) : Bool :=
  (headerText "text/event-stream").isPrefixOf ((Dict.get u.headers "content-type").getD [])

/-- `_iter_upstream_bytes`, with the client taking each chunk. Where the client does not, the
    generator is left where it stands and its `finally` does not run. -/
def iterUpstreamBytes (u : Upstream) : List (Option PyExn) → RelayTask Unit
  | [] =>
    match u.streamEnd with
    | none => cleanup u
    | some e =>
      if e.isHttpError ∧ isEventStream u then andThen (await u.eventSend) fun _ => cleanup u
      else ensure (raise e) (cleanup u)
  | chunkSend :: rest => andThen (await chunkSend) fun _ => iterUpstreamBytes u rest

/-- `StreamingResponse.__call__`. -/
def streamResponse (u : Upstream) : RelayTask Unit :=
  andThen (await u.startSend) fun _ =>
    andThen (iterUpstreamBytes u u.chunkSends) fun _ => await u.endSend

/-- `_RelayResponse.__call__`. -/
def relayCall (u : Upstream) : RelayTask Unit := ensure (streamResponse u) (cleanup u)

/-- `_streaming_relay_response`. The constructor of the response is outside the `try`. -/
def streamingRelayResponse (q : ProxyRequest) (u : Upstream) : RelayTask ProxyResponse :=
  tryElse (ret (relayHeaders q u)) PyExn.isException
    (fun e =>
      andThen (await u.aclose) fun _ =>
        andThen (emit .decrement) fun _ => raise e)
    fun headers => andThen (initHeaders headers) fun _ => ret (.relay u)

/-! ## The buffered voice mutation -/

/-- `_buffer_voice_mutation_response`, after the body is read: what could not be committed is
    only marked as uncertain. -/
def commitVoiceMutation (u : Upstream) : RelayTask Unit :=
  if 200 ≤ u.statusCode ∧ u.statusCode < 300 then
    tryElse (await u.committed) PyExn.isValueError (fun _ => ret ()) fun _ => ret ()
  else ret ()

def bufferVoiceMutationResponse (q : ProxyRequest) (u : Upstream) : RelayTask ProxyResponse :=
  tryElse (await u.aread) (fun e => e == .cancelled || e.isHttpError)
    (fun e =>
      andThen (cleanup u) fun _ =>
        if e = .cancelled then raise e
        else andThen (initHeaders (diagnosticHeaders q)) fun _ => ret .plain)
    fun _ =>
      andThen (commitVoiceMutation u) fun _ =>
        andThen (cleanup u) fun _ =>
          andThen
            (initHeaders (updateHeaders (filterResponseHeaders u.headers true)
              (diagnosticHeaders q)))
            fun _ => ret .plain

/-! ## The exchange with the worker -/

def buildRelayResponse (q : ProxyRequest) (u : Upstream) : RelayTask ProxyResponse :=
  match q.mutation with
  | some _ => bufferVoiceMutationResponse q u
  | none => streamingRelayResponse q u

/-- The call of `AsyncClient.send`. -/
def sendUpstream (q : ProxyRequest) : RelayTask Upstream :=
  match q.send with
  | .ok u => ret u
  | .error e => raise e

/-- `_open_upstream`: `none` is a response of the router's own. -/
def openUpstream (q : ProxyRequest) : RelayTask (Option Upstream) :=
  andThen (await q.buildRequest) fun _ =>
    andThen (emit .increment) fun _ =>
      tryElse (sendUpstream q) (fun _ => true)
        (fun e =>
          andThen (emit .decrement) fun _ =>
            if e = .poolTimeout then ret none
            else if e.isHttpError then
              andThen (initHeaders (diagnosticHeaders q)) fun _ => ret none
            else raise e)
        fun u => ret (some u)

def forwardRelay (q : ProxyRequest) : RelayTask ProxyResponse :=
  andThen (openUpstream q) fun
    | none => ret .plain
    | some u => buildRelayResponse q u

def selectAndForward (q : ProxyRequest) : RelayTask ProxyResponse :=
  tryElse (await q.selection) (· == .noEligibleWorker) (fun _ => ret .plain)
    fun _ => forwardRelay q

/-! ## The request -/

/-- `_exceeds_max_size`: a value that is no integer exceeds every limit. -/
def exceedsMaxSize (value : Option Int) (maxSize : Nat) : Bool :=
  match value with
  | some size => maxSize < size
  | none => true

def readBodyWithLimit (q : ProxyRequest) : Nat → List Nat → RelayTask Unit
  | _, [] => await q.bodyEnd
  | totalSize, chunk :: rest =>
    if q.bodyLimit < totalSize + chunk then raise .payloadTooLarge
    else readBodyWithLimit q (totalSize + chunk) rest

def forwardAdmitted (q : ProxyRequest) : RelayTask ProxyResponse :=
  if q.contentLength.any fun value => exceedsMaxSize value q.bodyLimit then ret .plain
  else
    tryElse (readBodyWithLimit q 0 q.chunks) (· == .payloadTooLarge) (fun _ => ret .plain) fun _ =>
      tryElse (await q.metadata) (· == .routeMetadata) (fun _ => ret .plain) fun _ =>
        if q.largeRequestError then ret .plain else selectAndForward q

/-- A streamed relay releases its slot from its cleanup; other responses once built. -/
def releaseBuilt : ProxyResponse → RelayTask ProxyResponse
  | .plain => andThen release fun _ => ret .plain
  | .relay u => ret (.relay u)

/-- `forward_model_request`. The `except BaseException` releases and raises again. -/
def forwardModelRequest (q : ProxyRequest) : RelayTask ProxyResponse :=
  if q.admitted then
    andThen (emit .acquire) fun _ =>
      tryElse (forwardAdmitted q) (fun _ => true) (fun e => andThen release fun _ => raise e)
        releaseBuilt
  else ret .plain

/-- The server calls the response it is given, and a streamed one runs its finalizer when it
    is gone. A plain response holds nothing. -/
def callResponse : ProxyResponse → RelayTask Unit
  | .plain => ret ()
  | .relay u => ensure (relayCall u) release

/-- The request to its end. -/
def serve (q : ProxyRequest) : RelayTask Unit := andThen (forwardModelRequest q) callResponse

/-- The changes the request makes to the shared counters, in order. -/
def run (q : ProxyRequest) : List CounterOp := (serve q {}).2.log

end ProxyRelay

end OmniRealtime
