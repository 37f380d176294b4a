import TargetSys.RwLock.FailedWait
import TargetSys.RwLock.LifeCycle
import TargetSys.Sync.LifeCycle
import TargetSys.Timer.Punctual
import TargetSys.Timer.Exclusion
import TargetSys.Timer.Implementation
import TargetSys.Timer.Asleep
import TargetSys.Dma.SpinGate
import TargetSys.Dma.Lifetime
import TargetSys.Dma.PageAddresses
import TargetSys.Dma.Requests
import TargetSys.Dma.Contiguity
import TargetSys.Dma.AllocFailure
import TargetSys.Log.Independence
import TargetSys.Log.FileLevels
import TargetSys.Log.Tables
import TargetSys.Log.Destinations
import TargetSys.Log.LifeCycle
