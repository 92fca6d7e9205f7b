import Courier.App
import Courier.Line.Stream
import Courier.Main
import Courier.Service
import Courier.Settings.Document
import Courier.Settings.Flags
import Courier.Text.Utf8.RoundTrip
import Courier.Proofs.RoundTrip
import Courier.Proofs.Service
import Courier.Proofs.Head.Chunks
import Courier.Proofs.Message.Use
import Courier.Proofs.Response
import Courier.Proofs.StatusLine
import Courier.Proofs.Receiver.Delivery
import Courier.Proofs.Service.Delivery
import Courier.Proofs.App.Framing
import Courier.Proofs.App.Refinement
import Courier.Proofs.Deadline.Connection
import Courier.Proofs.Relay.Connection
import Courier.Proofs.App.Dump
import Courier.Proofs.Body.Arrival
import Courier.Proofs.Service.Limit
import Courier.Proofs.DeclaredLength.Outcomes
import Courier.Proofs.Receiver.Reuse
import Courier.Proofs.Sender.Sendings
import Courier.Proofs.Body.Agreement
import Courier.Proofs.Headers.Edits
import Courier.Proofs.Headers.Written
import Courier.Proofs.SetCookie
import Courier.Proofs.Router.Registration
import Courier.Proofs.Headers.Block
import Courier.Proofs.App.Visits
import Courier.Proofs.Store
