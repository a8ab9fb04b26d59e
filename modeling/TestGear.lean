import TestGear.Hislip.Connections
import TestGear.Hislip.OneShot
import TestGear.Vxi11.Connections
import TestGear.Vxi11.OneShot
import TestGear.Instrument.Cuts
import TestGear.Vxi11.Server
import TestGear.Runs
import TestGear.Control
import TestGear.Control.Srq
import TestGear.Control.Alike
import TestGear.Control.Reset
import TestGear.Control.Probe
import TestGear.Aggregate.Rearrange
import TestGear.Aggregate.Counts
import TestGear.Aggregate.Sections
import TestGear.Ci.Leg
import TestGear.Ci.Columns
import TestGear.Ci.Index
import TestGear.Ci.Verdict
import TestGear.Ci.Missing
import TestGear.Proxy.Limits
import TestGear.Proxy.Segmentation
import TestGear.Proxy.HalfClose
import TestGear.Proxy.Log
import TestGear.Control.Status
import TestGear.Control.Isolation
import TestGear.Outcomes
import TestGear.Ci.Folding
import TestGear.Names
import TestGear.Vxi11.Rpc
import TestGear.Harness
import TestGear.Hislip.Meaning
import TestGear.Hislip.Walk
import TestGear.Hislip.Server
import TestGear.Control.Errors
import TestGear.Control.Scripted
import TestGear.MockServer.OneShot
import TestGear.Vxi11.Replies
import TestGear.Ci.Crashes
import TestGear.Harness.Registrar
import TestGear.Hislip.Walkers
import TestGear.Hislip.Client
import TestGear.SpecRules.Inventory
import TestGear.Frontend.Registry
import TestGear.Vxi11.Portmap
import TestGear.Frontend.Daemon
