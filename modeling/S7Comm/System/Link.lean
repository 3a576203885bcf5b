import S7Comm.Client.ReadWrite
import S7Comm.Server.Session

/-! A client and a server session over a transport that delivers every TSDU unchanged. The session answers a request
    when it is written, as `serveConn` does between two reads, and the client finds the answer when it reads; the
    context of the call does not end. -/

namespace S7Comm
open Go

structure Link where
  session : Session
  /-- The server still holds the connection. -/
  kept : Bool := true
  /-- Answers on their way to the client. -/
  inbox : List Bytes := []
  /-- The requests and the answers of the call so far. -/
  requests : List Bytes := []
  answers : List Bytes := []

/-- One turn of the loop of `serveConn`: a request that is not kept closes the connection, and a nil answer is not
    sent. -/
def Link.serve (cfg : ServerConfig) (req : Bytes) (w : Link) : Link :=
  match handle cfg req w.session with
  | (.ok (out, keep), session) =>
    { session, kept := keep, inbox := w.inbox ++ out.toList, requests := w.requests ++ [req],
      answers := w.answers ++ out.toList }
  | (_, session) => { w with session, kept := false, requests := w.requests ++ [req] }

def serverNet (cfg : ServerConfig) : Net Link where
  ctxErr w := (none, w)
  wait w := (none, w)
  writeTSDU req w := if w.kept then (none, w.serve cfg req) else (some (.net false "broken pipe"), w)
  readTSDU w :=
    match w.inbox with
    | out :: inbox => (.ok out, { w with inbox })
    | [] => (.error (.net false "EOF"), w)

/-- The region that an address of the client names on the server. -/
def Address.key (addr : Address) : AreaKey :=
  { area := addr.area, db := if addr.area = areaDB then UInt16.ofNat addr.dbNumber.toNat else 0 }

end S7Comm
