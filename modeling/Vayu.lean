import Vayu.Buffer.Basic
import Vayu.Buffer.Refinement
import Vayu.Socket
import Vayu.Server.State
import Vayu.Server.Registry
import Vayu.Server.Exec
import Vayu.Server.Invariant
import Vayu.Server.Output
import Vayu.Server.Lifecycle
import Vayu.Server.Armed
import Vayu.Server.Stop
import Vayu.Server.Listen
import Vayu.Lua.Double
import Vayu.Lua.Pattern
import Vayu.Lua.Number
import Vayu.Lua.Url
import Vayu.Http.Request
import Vayu.Http.Pipeline
import Vayu.Http.Script
import Vayu.Http.Accept
import Vayu.Http.Stream
import Vayu.Http.KeepAlive
import Vayu.Http.RequestText
import Vayu.Http.PostText
import Vayu.Http.Response
import Vayu.Http.Provider
import Vayu.Main
