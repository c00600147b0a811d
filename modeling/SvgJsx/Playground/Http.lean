import SvgJsx.Convert.Pipeline
import SvgJsx.Playground.Answer
import SvgJsx.Playground.MediaType
import SvgJsx.Playground.Page
import SvgJsx.Playground.Request

/-! The playground answers requests for its page, for the script and for conversions. Pages of any
origin may ask for conversions. -/

namespace SvgJsx.Playground
open Text

structure HttpRequest where
  method : Text := "GET".toList
  /-- The path, with a query behind a question mark if there is one. -/
  target : Text
  contentType? : Option Text := none
  body : Text := []
  deriving DecidableEq, Repr

structure HttpResponse where
  status : Nat
  contentType? : Option Text := none
  allowOrigin? : Option Text := none
  /-- The body. Refusals of the protocol have none. -/
  body : Text := []
  deriving DecidableEq, Repr

inductive Route where
  | page
  | live
  | script
  | conversion
  | unknown
  deriving DecidableEq, Repr

def livePath : Text := "/__live".toList

namespace Route

def ofTarget (target : Text) : Route :=
  let path := target.takeWhile (· ≠ '?')
  if path = ['/'] then page
  else if path = livePath then live
  else if path = "/__live.js".toList then script
  else if path = "/api/convert".toList then conversion
  else unknown

/-- Whether pages of any origin may use the route. Unknown paths count as well. -/
def isOpen : Route → Bool
  | conversion | unknown => true
  | _ => false

end Route

def requestedOptions (o : Options) (r : ConvertRequest) : Except Text Options :=
  match r.componentName? with
  | none => .ok o
  | some name =>
    if Component.isIdentifier name then .ok { o with componentName := name } else .error name

def answerRequest (o : Options) (r : ConvertRequest) : Answer :=
  match requestedOptions o r with
  | .error name => .error (Component.invalidNameMessage name)
  | .ok o =>
    match o.convert r.source with
    | .ok output => .output output.text
    | .error e => .error (Notice.ofError e).message

def headerValue (t : Text) : Text :=
  let isSpace (c : Char) : Bool := c == ' ' || c == '\t'
  ((t.dropWhile isSpace).reverse.dropWhile isSpace).reverse

def bodyLimit : Nat := 2097152

def respondConversion (o : Options) (r : HttpRequest) : HttpResponse :=
  if !r.contentType?.any (isJsonType <| headerValue ·) then { status := 415 }
  else if bodyLimit < byteLength r.body then { status := 413 }
  else
    match ConvertRequest.read r.body with
    | .error .malformed => { status := 400 }
    | .error .mismatch => { status := 422 }
    | .ok request =>
      let answer := answerRequest o request
      let status := match answer with
        | .output _ => 200
        | .error _ => 422
      { status, contentType? := some "application/json".toList, body := answer.written }

def respondDocument (r : HttpRequest) (contentType body : Text) : HttpResponse :=
  if r.method = "GET".toList then { status := 200, contentType? := some contentType, body }
  else if r.method = "HEAD".toList then { status := 200, contentType? := some contentType }
  else { status := 405 }

/-- The response of a route. The live connection asks for an upgrade that plain requests lack. -/
def respondRoute (o : Options) (r : HttpRequest) : Route → HttpResponse
  | .page => respondDocument r "text/html; charset=utf-8".toList pageHtml
  | .script => respondDocument r "application/javascript".toList (clientScript livePath)
  | .live => if r.method = "GET".toList then { status := 400 } else { status := 405 }
  | .conversion =>
    if r.method = "POST".toList then respondConversion o r else { status := 405 }
  | .unknown => { status := 404 }

/-- The response to a request. On an open route a question for the options is answered as such, and
every response says that any page may read it. -/
def respond (o : Options) (r : HttpRequest) : HttpResponse :=
  let route := Route.ofTarget r.target
  if route.isOpen then
    let response := if r.method = "OPTIONS".toList then { status := 200 } else respondRoute o r route
    { response with allowOrigin? := some ['*'] }
  else respondRoute o r route

end SvgJsx.Playground
