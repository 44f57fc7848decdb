import MerlinBridge.Breaker
import MerlinBridge.Protocol
import MerlinBridge.Reply.Envelope
import MerlinBridge.Reply.Payload
import MerlinBridge.Tool.Invocation

/-!
# Why a request fails

A request may fail before it is sent, while the tool runs, or because of what the tool replied. A
reply that cannot be understood is malformed, whatever it is that cannot be understood about it.
-/

namespace MerlinBridge

inductive Malformation where
  | cutShort (fault : Tool.Fault)
  | envelope (error : Envelope.Error)
  | unknownClass (complaint : Complaint)
  | payload (error : Payload.Error)
deriving DecidableEq

namespace Malformation

def message : Malformation → Bytes
  | cutShort fault => fault.message
  | envelope error => error.message
  | unknownClass complaint => complaint.text
  | payload error => error.message

end Malformation

inductive Fault where
  | invalidRequest
  | stale
  | undetectableState
  /-- A reply arrived in a state that another kind of request leads to. -/
  | protocolViolation
  | unavailable
  | documentClosed
  | shuttingDown
  | malformed (cause : Malformation)
  | definitionNotFound (error : Payload.Error)
  | transport (fault : Tool.Fault)
  | complaint (complaint : Complaint)
  | notInFlight (state : Protocol.State)
deriving DecidableEq

namespace Fault

def message : Fault → Bytes
  | invalidRequest => "request has no document"
  | stale => "document lost focus before the reply arrived"
  | undetectableState => "result in undetectable state"
  | protocolViolation => "reply does not match the request in flight"
  | unavailable => Breaker.rejection ++ ": ocamlmerlin is unavailable"
  | documentClosed => "document was closed"
  | shuttingDown => "bridge shutting down"
  | malformed cause => cause.message ++ ": malformed reply"
  | definitionNotFound error => error.message ++ ": definition not found"
  | transport fault => fault.message
  | complaint c => c.text
  | notInFlight state => Protocol.notInFlight state.name

end Fault

end MerlinBridge
