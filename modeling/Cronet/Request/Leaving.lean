import Cronet.Request.Credentials
import Cronet.Request.Walk
import Cronet.Url.Agreement

namespace Cronet.Request

open Cronet.Session (Response)
open Cronet.Url

section

variable [Library]

variable {Host : Type} [HostParser Host]

end

section

attribute [local instance] asciiLibrary domainParser

end

end Cronet.Request
