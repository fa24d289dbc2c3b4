import Ferriot.Types

/-!
CoAP requests and responses, as the transport hands them over.
-/
namespace Ferriot

inductive CoapMethod where
  | Get | Post | Put | Delete
deriving DecidableEq, Repr

/-- `CoapCode`: the code of a response. A peer may send any byte. -/
structure CoapCode where
  value : UInt8
deriving DecidableEq, Repr

namespace CoapCode

def Created : CoapCode := ⟨65⟩
def Deleted : CoapCode := ⟨66⟩
def Changed : CoapCode := ⟨68⟩
def Content : CoapCode := ⟨69⟩
def BadRequest : CoapCode := ⟨128⟩
def Unauthorized : CoapCode := ⟨129⟩
def Forbidden : CoapCode := ⟨131⟩
def NotFound : CoapCode := ⟨132⟩
def MethodNotAllowed : CoapCode := ⟨133⟩
def InternalServerError : CoapCode := ⟨160⟩

/-- 2.xx -/
def isSuccess (code : CoapCode) : Bool := 64 ≤ code.value && code.value < 128

/-- 4.xx and 5.xx -/
def isError (code : CoapCode) : Bool := 128 ≤ code.value && code.value < 192

end CoapCode

/-- `ContentFormat`: the value of CoAP option 12. -/
structure ContentFormat where
  value : UInt16
deriving DecidableEq, Repr

def ContentFormat.LinkFormat : ContentFormat := ⟨40⟩
def ContentFormat.TlvLwm2m : ContentFormat := ⟨11542⟩

/-- The option numbers of libcoap, `COAP_OPTION_LOCATION_PATH` and so on. -/
def CoapOption.LocationPath : UInt16 := 8
def CoapOption.UriPath : UInt16 := 11
def CoapOption.ContentFormat : UInt16 := 12
def CoapOption.LocationQuery : UInt16 := 20

/-- `coap_uri_scheme_t` -/
inductive UriScheme where
  | Coap | Coaps | CoapTcp | CoapsTcp | Http | Https | CoapWs | CoapsWs
deriving DecidableEq, Repr

/-- `coap_uri_t`: the parts that `coap_split_uri` finds. -/
structure Uri where
  scheme : UriScheme
  host : Bytes
  port : UInt16
  path : Bytes := []
  query : Bytes := []
deriving DecidableEq, Repr

structure CoapRequest where
  method : CoapMethod
  uriPath : Bytes
  payload : Bytes := []
  contentFormat : ContentFormat := .TlvLwm2m
deriving DecidableEq, Repr

/-- The code has no initializer in the source: `none` while nothing is assigned to it. -/
structure CoapResponse where
  code : Option CoapCode := none
  contentFormat : ContentFormat := .TlvLwm2m
  options : List (UInt16 × Bytes) := []
  payload : Bytes := []
deriving DecidableEq, Repr

namespace CoapResponse

def isSuccess (r : CoapResponse) : Bool := r.code.any CoapCode.isSuccess

/-- The Location-Path options joined by slashes, after a leading slash. -/
def getLocationPath (r : CoapResponse) : Bytes :=
  let join (location value : Bytes) := if location = [] then value else location ++ lit ['/'] ++ value
  let location := ((r.options.filter (fun o => o.1 = 8)).map Prod.snd).foldl join []
  if location = [] then location else lit ['/'] ++ location

end CoapResponse

end Ferriot
