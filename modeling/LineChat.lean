import LineChat.Channel.Endpoint
import LineChat.Files.Tree
import LineChat.Handshake.Relay
import LineChat.Main
import LineChat.Program.Isolated
import LineChat.Proofs.Channel.CutOff
import LineChat.Proofs.Channel.Echo
import LineChat.Proofs.Channel.EnvelopeRoundTrip
import LineChat.Proofs.Channel.HostileWire
import LineChat.Proofs.Channel.Keystream
import LineChat.Proofs.Channel.Leniency
import LineChat.Proofs.Channel.Retention
import LineChat.Proofs.Channel.Transparency
import LineChat.Proofs.Channel.Writing
import LineChat.Proofs.Chat.Lifecycle
import LineChat.Proofs.Handshake.Agreement
import LineChat.Proofs.Handshake.LineBudget
import LineChat.Proofs.Handshake.Spelling
import LineChat.Proofs.Key.Directory
import LineChat.Proofs.Private.Reflection
import LineChat.Proofs.Private.ReportBack
import LineChat.Proofs.Private.Sealed
import LineChat.Proofs.Registry.Interleaving
import LineChat.Proofs.Secrecy
import LineChat.Proofs.Settings.RoundTrip
import LineChat.Proofs.Splitter.Conservation
import LineChat.Proofs.Splitter.Finality
import LineChat.Proofs.Splitter.Registration
import LineChat.Proofs.Splitter.Termination
import LineChat.Registry
