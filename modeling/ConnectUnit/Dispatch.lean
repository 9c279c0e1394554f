import ConnectUnit.Engine

/-!
# Dispatch of control messages

Which control messages get past the first checks of `dispatch_control`.
-/

namespace ConnectUnit

def pktPmtu : Tag := .ofChars 'M' 'P' 'M' 'T'
def pktPmar : Tag := .ofChars 'M' 'P' 'A' 'R'
def pktMstr : Tag := .ofChars 'M' 'S' 'T' 'R'
def pktBrek : Tag := .ofChars 'M' 'B' 'R' 'K'
def pktRdys : Tag := .ofChars 'M' 'R' 'D' 'Y'
def pktMctl : Tag := .ofChars 'M' 'C' 'T' 'L'

def allowUnauthControlTagWithCrypto (tag : Tag) : Bool :=
  tag ∈ [pktMerr, pktPmtu, pktPmar, pktBrek, pktRdys, pktMstr, pktParaHello, pktParaReply, pktParaOk,
    pktParaPunchAck, pktKpal, pktHpch, pktHack, pktMctl]

def bypassCtrlLimit (tag : Tag) : Bool := tag ∈ [pktHpch, pktHack, pktKpal, pktMctl, pktJack]

namespace Engine

def admitControl (e : Engine) (tag : Tag) (fromEp : SocketAddr) (authenticated : Bool) (now : Instant) :
    Engine × Bool :=
  let limited := if authenticated || bypassCtrlLimit tag then (e.control.ctrlLimiter, true)
    else e.control.ctrlLimiter.allow (srcAddrKey fromEp) now
  let gated := e.hasCrypto && !authenticated && !allowUnauthControlTagWithCrypto tag
  ({ e with control := { e.control with ctrlLimiter := limited.1 } }, limited.2 && !gated)

end Engine

end ConnectUnit
