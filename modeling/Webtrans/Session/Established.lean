import Webtrans.Proto.Connect
import Webtrans.Session.Accept

namespace Webtrans.Session

open Webtrans.Data Webtrans.Proto

/-! What a session makes of its CONNECT stream (`Session::new` and `raw` of
`session.rs` in both backends). -/

/-- An established WebTransport session, as the operations on its streams and
datagrams see it. -/
structure Established (url : UrlCrate) where
  sessionId : Option VarInt
  headerUni : List UInt8
  headerBi : List UInt8
  headerDatagram : List UInt8
  url : url.Url

namespace Established

variable {url : UrlCrate}

/-- The session ID is the stream ID of the CONNECT request. -/
def new (sessionId : VarInt) (target : url.Url) : Established url where
  sessionId := some sessionId
  headerUni := UniStream.webtransport.encode ++ sessionId.encode
  headerBi := Frame.webtransport.encode ++ sessionId.encode
  headerDatagram := sessionId.encode
  url := target

def raw (target : url.Url) : Established url where
  sessionId := none
  headerUni := []
  headerBi := []
  headerDatagram := []
  url := target

def header (session : Established url) : Accept.Direction → List UInt8
  | .uni => session.headerUni
  | .bi => session.headerBi

theorem header_new (sessionId : VarInt) (target : url.Url) (d : Accept.Direction) :
    (new sessionId target).header d = d.typ.encode ++ sessionId.encode := by
  cases d <;> rfl

end Established

end Webtrans.Session
