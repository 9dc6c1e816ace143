import MoonlightScarlet.Control.Endpoint
import MoonlightScarlet.Control.Session
import MoonlightScarlet.Sys.Configuration
import MoonlightScarlet.Support.Fallible
/-!
# From a prepared session to a connection

What `stream::run` makes of a session before it starts the connection.
-/

namespace MoonlightScarlet.App

open Control Sys Support.Fallible

def hostConnectionInfo (session : StreamSession) : HostConnectionInfo where
  address := session.endpoint.host
  appVersion := session.server.appVersion
  gfeVersion := session.server.gfeVersion
  rtspSessionUrl := session.sessionUrl
  serverCodecModeSupport := session.server.serverCodecModeSupport

def streamConfiguration (session : StreamSession) : StreamConfiguration :=
  (StreamConfiguration.new session.config.width session.config.height session.config.fps
    session.remoteInputAesKey session.remoteInputAesIv).withBitrateKbps session.config.bitrateKbps

/-- The connection accepts the configuration that is made of the session. -/
def Streamable (session : StreamSession) : Prop :=
  Passes (checkInputs (hostConnectionInfo session) (streamConfiguration session))

end MoonlightScarlet.App
