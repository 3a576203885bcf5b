import S7Comm.Errors

/-! The server configuration (`server/server.go`). `New` checks it and puts the defaults in, so a running
    server has a `ServerConfig`, whose fields are in range. The logger is left out. -/

namespace S7Comm
open Go

def minPDUSize : Nat := 240
def maxPDUSize : Nat := 4096
def defaultPDUSize : Int := 480
def defaultMaxConns : Int := 32
/-- Five seconds, in nanoseconds. -/
def defaultHandshake : Int := 5000000000

/-- The configuration as the host gives it; durations are in nanoseconds. -/
structure Config where
  maxPDUSize : Int := 0
  maxConnections : Int := 0
  handshakeTimeout : Int := 0
  idleTimeout : Int := 0
  deriving Repr, DecidableEq

/-- The configuration of a running server. -/
structure ServerConfig where
  maxPDUSize : Nat
  maxConnections : Nat
  handshakeTimeout : Nat
  idleTimeout : Nat
  min_le : minPDUSize ≤ maxPDUSize
  le_max : maxPDUSize ≤ S7Comm.maxPDUSize
  deriving DecidableEq

def Config.withDefaults (c : Config) : Res ServerConfig :=
  let size := if c.maxPDUSize = 0 then defaultPDUSize else c.maxPDUSize
  if h : size < minPDUSize ∨ size > S7Comm.maxPDUSize then
    .fail (.text s!"s7 server: MaxPDUSize {size} not in {minPDUSize}..{S7Comm.maxPDUSize}")
  else
    let conns := if c.maxConnections = 0 then defaultMaxConns else c.maxConnections
    if conns < 0 then
      .fail (.text s!"s7 server: MaxConnections {conns} is negative")
    else
      let handshake := if c.handshakeTimeout = 0 then defaultHandshake else c.handshakeTimeout
      if handshake < 0 ∨ c.idleTimeout < 0 then
        .fail (.text "s7 server: negative timeout")
      else
        .ok {
          maxPDUSize := size.toNat
          maxConnections := conns.toNat
          handshakeTimeout := handshake.toNat
          idleTimeout := c.idleTimeout.toNat
          min_le := by omega
          le_max := by omega }

/-- The configuration `New` makes of an empty `Config`. -/
def defaultConfig : ServerConfig where
  maxPDUSize := 480
  maxConnections := 32
  handshakeTimeout := 5000000000
  idleTimeout := 0
  min_le := by decide
  le_max := by decide

example : Config.withDefaults {} = .ok defaultConfig := by decide

end S7Comm
