import Whereabouts.Calendar
import Whereabouts.Change
import Whereabouts.Config.Vehicle
import Whereabouts.Fusion.Pass
import Whereabouts.Reckoning.Drive
import Whereabouts.Store
import Whereabouts.Vehicle
import Whereabouts.Proofs.Binary64
import Whereabouts.Proofs.Change
import Whereabouts.Proofs.Exact
import Whereabouts.Proofs.Fusion.Winner
import Whereabouts.Proofs.Fusion.Outranked
import Whereabouts.Proofs.Fusion.Pass
import Whereabouts.Proofs.Fusion.Patch
import Whereabouts.Proofs.Vehicle.Run
import Whereabouts.Proofs.Listener
import Whereabouts.Proofs.Reckoning.Start
import Whereabouts.Proofs.Reckoning.Walk
import Whereabouts.Proofs.Location.Reading
import Whereabouts.Proofs.Provider.Report
import Whereabouts.Proofs.Provider.Run
import Whereabouts.Proofs.Provider.Steady
import Whereabouts.Proofs.Globe
import Whereabouts.Proofs.Reckoning.Progress
import Whereabouts.Proofs.Source.Simulator
import Whereabouts.Proofs.Vehicle.Slots
import Whereabouts.Proofs.Binary64.Positive
import Whereabouts.Proofs.Store.Run
import Whereabouts.Proofs.Store.InPlace
import Whereabouts.Proofs.Fusion.Precision
import Whereabouts.Proofs.Fusion.Order
import Whereabouts.Proofs.Location.Agreement
import Whereabouts.Proofs.Location.Calls
import Whereabouts.Proofs.Hidden
import Whereabouts.Proofs.Json.Token
import Whereabouts.Proofs.Json.Text
import Whereabouts.Proofs.Json.Record
import Whereabouts.Proofs.Config.RoundTrip
import Whereabouts.Proofs.Vehicle.FixTime
import Whereabouts.Proofs.Fusion.Drift
import Whereabouts.Proofs.Source.Placement
import Whereabouts.Proofs.Json.Members
import Whereabouts.Proofs.Config.Members
import Whereabouts.Proofs.Fusion.Leaders
import Whereabouts.Proofs.Fusion.Shares
import Whereabouts.Proofs.Fusion.Provenance
import Whereabouts.Proofs.Binary64.Elapsed
import Whereabouts.Proofs.Reckoning.Ending
import Whereabouts.Proofs.Reckoning.InPlace
import Whereabouts.Proofs.Geo.Arc
import Whereabouts.Proofs.Vehicle.Checks
import Whereabouts.Proofs.Fusion.Mean
import Whereabouts.Proofs.Fusion.Recorded
import Whereabouts.Proofs.Fusion.Accuracy
import Whereabouts.Proofs.Calendar.Text
import Whereabouts.Proofs.Geo.Nearest
import Whereabouts.Proofs.Reckoning.Closest
import Whereabouts.Proofs.Fusion.Heading
import Whereabouts.Proofs.Binary64.Quotient
import Whereabouts.Proofs.Geo.Bearing
import Whereabouts.Proofs.Geo.Rounded
import Whereabouts.Proofs.Reckoning.OnGlobe
import Whereabouts.Proofs.Reckoning.Rounded
import Whereabouts.Proofs.Source.OnGlobe
