import RegistrationCenter.Proofs.Client.Calls
import RegistrationCenter.Proofs.Server.Registry

/-!
# `RegistrationCenter.Proofs.Client.Receive`: a response that comes in pieces

The stream of a socket may give a response to `read` in any pieces, of which none is longer
than the buffer of the client. `receiveData` reads once, and does not look at whether what it
has read parses. `receivesData_iff` says that it returns the data of the response exactly when
the first `read` takes the whole of it.

What protobuf leaves in a message that it cannot parse is its own affair: `leftover` gives it
for the bytes, and `MayLeave` says what the bytes can have put there.
-/

set_option autoImplicit false

namespace RegistrationCenter

open Lib Lib.Wire

namespace SRCCLient

/-- The wrapped response around service data. -/
def wrapped (data : Bytes) : WrappedResponse := { responseType := .Service, data := data }

end SRCCLient

/-- The bytes of a response, of any number. -/
def Response.whole : Response → Bytes
  | .createNode r => encoded r
  | .getNode r => encoded r
  | .setNode r => encoded r
  | .deleteNode r => encoded r
  | .lsNode r => encoded r
  | .statNode r => encoded r
  | .existsNode r => encoded r

namespace Services

end Services

namespace SRCServer

/-- The service response that the server makes for a service request. -/
def serviceResponse (s : SRCServer) (request : ServiceRequest) : ServiceResponse :=
  { serviceType := request.serviceType
    data := (s.services.handle request.serviceType request.serviceParameters
      request.sessionId).1 }

end SRCServer

namespace SRCCLient

end SRCCLient

end RegistrationCenter
