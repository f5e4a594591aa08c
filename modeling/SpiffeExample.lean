import SpiffeExample.Transition
import SpiffeExample.Interrupts
import SpiffeExample.Pipeline
import SpiffeExample.Replay
import SpiffeExample.Splitting
import SpiffeExample.Json
import SpiffeExample.JsonRoundTrip
import SpiffeExample.JsonInteger
import SpiffeExample.GoJson
import SpiffeExample.X509
import SpiffeExample.CertificateUtils
import SpiffeExample.SvidManager
import SpiffeExample.SvidUpdates
import SpiffeExample.TrustManager
import SpiffeExample.KeyManager
import SpiffeExample.AliasCoherence
import SpiffeExample.Filter
import SpiffeExample.FilterAuthorization
import SpiffeExample.PeerAcceptance
import SpiffeExample.AnchorExpiry
import SpiffeExample.UriIdentity
import SpiffeExample.Extractors
import SpiffeExample.DeclaredErrors
import SpiffeExample.AclAgreement
import SpiffeExample.Handshake
import SpiffeExample.HandshakeSnapshot
import SpiffeExample.AclManager
import SpiffeExample.AclFreshness
import SpiffeExample.AclRecovery
import SpiffeExample.Dump
import SpiffeExample.DumpEffect
import SpiffeExample.DumpFiles
import SpiffeExample.DumpOutcome
import SpiffeExample.CaBundle
import SpiffeExample.Daemon
import SpiffeExample.ConversionFailure
import SpiffeExample.SingleChild
import SpiffeExample.ChildExit
import SpiffeExample.Restart
import SpiffeExample.GhostunnelArgs
import SpiffeExample.Release
import SpiffeExample.GoUrl
import SpiffeExample.Registration
import SpiffeExample.RegistrationEncoding
import SpiffeExample.RegistrationResponses
import SpiffeExample.RegistrationExchanges
import SpiffeExample.RegistrationSoundness
import SpiffeExample.RegistrationRoundTrip
import SpiffeExample.HotRestarter
import SpiffeExample.RestarterOrder
import SpiffeExample.RestarterRuns
import SpiffeExample.RestarterLaws
import SpiffeExample.RestarterEnd
import SpiffeExample.RestarterNesting
import SpiffeExample.Renewals
import SpiffeExample.PeerCheckFreshness
import SpiffeExample.ProviderInstall
import SpiffeExample.RegistrationRuns
import SpiffeExample.CertDir
import SpiffeExample.Connection
import SpiffeExample.RenewalAge
import SpiffeExample.Handles
