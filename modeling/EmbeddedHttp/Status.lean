/-
# EmbeddedHttp.Status -- the answers the server gives on its own

Applications choose their own status lines.  The codes here are for the answers
written without one: the interim answer to a client that asks before it sends a
body, and the page for a request that failed before the application said
anything.
-/
import EmbeddedHttp.Bytes

namespace EmbeddedHttp

set_option autoImplicit false

/-- The statuses that the server itself produces. -/
inductive Status where
  | proceed
  | ok
  | badRequest
  | notFound
  | requestTimeout
  | lengthRequired
  | payloadTooLarge
  | expectationFailed
  | internalServerError
  | serviceUnavailable
  deriving DecidableEq, Repr

namespace Status

/-- Every status. -/
def all : List Status :=
  [.proceed, .ok, .badRequest, .notFound, .requestTimeout, .lengthRequired,
    .payloadTooLarge, .expectationFailed, .internalServerError, .serviceUnavailable]

/-- The three-digit code. -/
def code : Status → Nat
  | .proceed => 100
  | .ok => 200
  | .badRequest => 400
  | .notFound => 404
  | .requestTimeout => 408
  | .lengthRequired => 411
  | .payloadTooLarge => 413
  | .expectationFailed => 417
  | .internalServerError => 500
  | .serviceUnavailable => 503

/-- The status with a code, if the server has one. -/
def ofCode? (n : Nat) : Option Status :=
  all.find? fun status => status.code == n

/-- The phrase that goes with the code. -/
def reason : Status → String
  | .proceed => "Continue"
  | .ok => "OK"
  | .badRequest => "Bad Request"
  | .notFound => "Not Found"
  | .requestTimeout => "Request Timeout"
  | .lengthRequired => "Length Required"
  | .payloadTooLarge => "Request Entity Too Large"
  | .expectationFailed => "Expectation Failed"
  | .internalServerError => "Internal Server Error"
  | .serviceUnavailable => "Service Unavailable"

/-- The document that explains a failure to a reader. -/
def document (status : Status) : String :=
  match status with
  | .internalServerError =>
      "<html><head><title>" ++ toString status.code ++ " " ++ status.reason ++
        "</title></head><body><h1>" ++ status.reason ++ "</h1>" ++
        "<p>The server encountered an internal error and was unable to complete your request.  " ++
        "Either the server is overloaded or there is an error in the application.</p>" ++
        "</body></html>\n"
  | _ =>
      "<html><head><title>" ++ status.reason ++ "</title></head><body><p>" ++ status.reason ++
        ".</p></body></html>\n"

/-- The complete answer for a request that failed before the application said
anything.  It states its own length and closes the connection. -/
def errorPage (status : Status) (serverName : String) : Bytes :=
  let body := Bytes.ofAscii status.document
  Bytes.ofAscii ("HTTP/1.0 " ++ toString status.code ++ " " ++ status.reason ++
      "\r\nContent-Type: text/html\r\nServer: ") ++
    Bytes.ofText serverName ++
    Bytes.ofAscii ("\r\nContent-Length: " ++ toString body.length ++
      "\r\nConnection: close\r\n\r\n") ++
    body

/-- The interim answer to a client that asked before sending its body. -/
def interim : Bytes :=
  Bytes.ofAscii "HTTP/1.1 100 Continue\r\n\r\n"

end Status

end EmbeddedHttp
